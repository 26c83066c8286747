import Aerosuite.Library.Program

/-! Programs whose operations are carried out by those of another interface. -/

namespace Program

variable {E E' S α β : Type} {R : E → Type} {R' : E' → Type} (f : E → E')
  (g : (e : E) → R' (f e) → R e)

/-- The program with each operation replaced by another one, whose reply is converted back. -/
def translate : Program E R α → Program E' R' α
  | .ret a => .ret a
  | .call e k => .call (f e) fun r => translate (k (g e r))

@[simp] theorem translate_ret (a : α) : (ret a : Program E R α).translate f g = .ret a := rfl

@[simp] theorem translate_call (e : E) (k : R e → Program E R α) :
    (call e k).translate f g = .call (f e) fun r => (k (g e r)).translate f g := rfl

@[simp] theorem translate_bind (p : Program E R α) (q : α → Program E R β) :
    (p >>= q).translate f g = p.translate f g >>= fun a => (q a).translate f g := by
  induction p with
  | ret a => rfl
  | call e k ih => exact congrArg (call (f e)) (funext fun r => ih (g e r))

theorem translate_map (h : α → β) (p : Program E R α) :
    (h <$> p).translate f g = h <$> p.translate f g :=
  translate_bind f g p fun a => ret (h a)

theorem translate_forEach {body : β → Program E R Unit} {body' : β → Program E' R' Unit}
    (h : ∀ x, (body x).translate f g = body' x) (xs : List β) :
    (forEach body xs).translate f g = forEach body' xs := by
  induction xs with
  | nil => rfl
  | cons x xs ih => rw [forEach_cons, forEach_cons, translate_bind, h, ih]

theorem translate_foldEach {body : α → β → Program E R α} {body' : α → β → Program E' R' α}
    (h : ∀ a x, (body a x).translate f g = body' a x) (a : α) (xs : List β) :
    (foldEach body a xs).translate f g = foldEach body' a xs := by
  induction xs generalizing a with
  | nil => rfl
  | cons x xs ih =>
    rw [foldEach_cons, foldEach_cons, translate_bind, h]
    exact congrArg (body' a x >>= ·) (funext ih)

/-- A program runs on the other interface as its translation does there. -/
theorem run_translate (h : (e : E') → S → R' e × S) (p : Program E R α) (s : S) :
    (p.translate f g).run h s = p.run (fun e s => (h (f e) s).map (g e) id) s := by
  induction p generalizing s with
  | ret a => rfl
  | call e k ih => exact ih (g e (h (f e) s).1) (h (f e) s).2

end Program
