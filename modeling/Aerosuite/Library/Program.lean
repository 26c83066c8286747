import Mathlib.Control.Basic
import Mathlib.Data.List.Basic

/-! Programs that call an environment.  A program returns a value or performs an operation and goes
on with the reply.  `run` answers the operations with a handler on a state, `Exec` with arbitrary
replies that it records, and `Always` bounds what a program may perform whatever the replies. -/

/-- A program over the operations `E`, where operation `e` is answered by a value of `R e`. -/
inductive Program (E : Type) (R : E → Type) (α : Type) where
  | ret (a : α)
  | call (e : E) (k : R e → Program E R α)

namespace Program

variable {E : Type} {R : E → Type} {α β γ S : Type}

protected def bind : Program E R α → (α → Program E R β) → Program E R β
  | .ret a, f => f a
  | .call e k, f => .call e fun r => (k r).bind f

instance : Monad (Program E R) where
  pure := .ret
  bind := Program.bind

/-- The program that performs `e` and returns its reply. -/
def perform (e : E) : Program E R (R e) := .call e .ret

@[simp] theorem pure_eq_ret (a : α) : (pure a : Program E R α) = .ret a := rfl

@[simp] theorem ret_bind (a : α) (f : α → Program E R β) : (ret a >>= f) = f a := rfl

@[simp] theorem call_bind (e : E) (k : R e → Program E R α) (f : α → Program E R β) :
    (call e k >>= f) = call e fun r => k r >>= f := rfl

@[simp] theorem perform_bind (e : E) (f : R e → Program E R β) : (perform e >>= f) = call e f := rfl

protected theorem bind_ret (p : Program E R α) : (p >>= fun a => ret a) = p := by
  induction p with
  | ret a => rfl
  | call e k ih => exact congrArg (call e) (funext ih)

protected theorem bind_assoc (p : Program E R α) (f : α → Program E R β)
    (g : β → Program E R γ) : (p >>= f >>= g) = (p >>= fun a => f a >>= g) := by
  induction p with
  | ret a => rfl
  | call e k ih => exact congrArg (call e) (funext ih)

instance : LawfulMonad (Program E R) :=
  LawfulMonad.mk' _ Program.bind_ret (fun _ _ => rfl) Program.bind_assoc

/-- An operation with the reply that it got. -/
structure Event (E : Type) (R : E → Type) where
  op : E
  reply : R op

/-- The operation that a program performs next. -/
def nextOp : Program E R α → Option E
  | .ret _ => none
  | .call e _ => some e

/-- The result of a program whose operations `h` answers from a state. -/
def run (h : (e : E) → S → R e × S) : Program E R α → S → α × S
  | .ret a, s => (a, s)
  | .call e k, s => (k (h e s).1).run h (h e s).2

@[simp] theorem run_ret (h : (e : E) → S → R e × S) (a : α) (s : S) :
    (ret a : Program E R α).run h s = (a, s) := rfl

@[simp] theorem run_call (h : (e : E) → S → R e × S) (e : E) (k : R e → Program E R α) (s : S) :
    (call e k).run h s = (k (h e s).1).run h (h e s).2 := rfl

@[simp] theorem run_bind (h : (e : E) → S → R e × S) (p : Program E R α) (f : α → Program E R β)
    (s : S) : (p >>= f).run h s = (f (p.run h s).1).run h (p.run h s).2 := by
  induction p generalizing s with
  | ret a => rfl
  | call e k ih => exact ih _ _

@[simp] theorem run_map (h : (e : E) → S → R e × S) (f : α → β) (p : Program E R α) (s : S) :
    (f <$> p).run h s = (f (p.run h s).1, (p.run h s).2) := by
  rw [map_eq_pure_bind, run_bind]
  rfl

/-- The operations that a program performs when `h` answers them from a state. -/
def operations (h : (e : E) → S → R e × S) : Program E R α → S → List E
  | .ret _, _ => []
  | .call e k, s => e :: (k (h e s).1).operations h (h e s).2

@[simp] theorem operations_ret (h : (e : E) → S → R e × S) (a : α) (s : S) :
    (ret a : Program E R α).operations h s = [] := rfl

@[simp] theorem operations_call (h : (e : E) → S → R e × S) (e : E) (k : R e → Program E R α)
    (s : S) : (call e k).operations h s = e :: (k (h e s).1).operations h (h e s).2 := rfl

theorem operations_bind (h : (e : E) → S → R e × S) (p : Program E R α) (f : α → Program E R β)
    (s : S) : (p >>= f).operations h s =
      p.operations h s ++ (f (p.run h s).1).operations h (p.run h s).2 := by
  induction p generalizing s with
  | ret a => rfl
  | call e k ih => exact congrArg (e :: ·) (ih _ _)

/-- The state after the first `k` operations of a program, or after all when there are fewer. -/
def stateAfter (h : (e : E) → S → R e × S) : ℕ → Program E R α → S → S
  | 0, _, s => s
  | _ + 1, .ret _, s => s
  | k + 1, .call e p, s => (p (h e s).1).stateAfter h k (h e s).2

@[simp] theorem stateAfter_zero (h : (e : E) → S → R e × S) (p : Program E R α) (s : S) :
    p.stateAfter h 0 s = s := by
  cases p <;> rfl

@[simp] theorem stateAfter_ret (h : (e : E) → S → R e × S) (k : ℕ) (a : α) (s : S) :
    (ret a : Program E R α).stateAfter h k s = s := by
  cases k <;> rfl

@[simp] theorem stateAfter_call (h : (e : E) → S → R e × S) (k : ℕ) (e : E)
    (p : R e → Program E R α) (s : S) :
    (call e p).stateAfter h (k + 1) s = (p (h e s).1).stateAfter h k (h e s).2 := rfl

/-- `Exec p t a`: with the replies that `t` records, `p` performs the operations of `t` in order
and returns `a`. -/
inductive Exec : Program E R α → List (Event E R) → α → Prop
  | ret (a : α) : Exec (.ret a) [] a
  | call {e : E} {k : R e → Program E R α} {t : List (Event E R)} {a : α} (r : R e)
      (tail : Exec (k r) t a) : Exec (.call e k) (⟨e, r⟩ :: t) a

@[simp] theorem exec_ret {a b : α} {t : List (Event E R)} :
    Exec (ret a : Program E R α) t b ↔ t = [] ∧ b = a := by
  constructor
  · rintro ⟨⟩
    exact ⟨rfl, rfl⟩
  · rintro ⟨rfl, rfl⟩
    exact .ret _

theorem exec_call {e : E} {k : R e → Program E R α} {t : List (Event E R)} {a : α} :
    Exec (call e k) t a ↔ ∃ r t', t = ⟨e, r⟩ :: t' ∧ Exec (k r) t' a := by
  constructor
  · rintro ⟨⟩
    exact ⟨_, _, rfl, by assumption⟩
  · rintro ⟨r, t', rfl, h⟩
    exact .call r h

theorem exec_bind {p : Program E R α} {f : α → Program E R β} {t : List (Event E R)} {b : β} :
    Exec (p >>= f) t b ↔ ∃ t₁ a t₂, t = t₁ ++ t₂ ∧ Exec p t₁ a ∧ Exec (f a) t₂ b := by
  constructor
  · intro h
    induction p generalizing t with
    | ret a => exact ⟨[], a, t, rfl, .ret a, h⟩
    | call e k ih =>
      obtain ⟨r, t', rfl, h'⟩ := exec_call.mp h
      obtain ⟨t₁, a, t₂, rfl, h₁, h₂⟩ := ih r h'
      exact ⟨⟨e, r⟩ :: t₁, a, t₂, rfl, .call r h₁, h₂⟩
  · rintro ⟨t₁, a, t₂, rfl, h₁, h₂⟩
    induction h₁ with
    | ret a => exact h₂
    | call r _ ih => exact .call r (ih h₂)

theorem exec_bind_ret {p : Program E R α} {f : α → β} {t : List (Event E R)} {b : β} :
    Exec (p >>= fun a => ret (f a)) t b ↔ ∃ a, Exec p t a ∧ b = f a := by
  constructor
  · intro h
    obtain ⟨t₁, a, t₂, rfl, hp, hret⟩ := exec_bind.mp h
    obtain ⟨rfl, rfl⟩ := exec_ret.mp hret
    exact ⟨a, by rwa [List.append_nil], rfl⟩
  · rintro ⟨a, hp, rfl⟩
    exact exec_bind.mpr ⟨t, a, [], (List.append_nil t).symm, hp, .ret _⟩

theorem exec_perform {e : E} {t : List (Event E R)} {r : R e} :
    Exec (perform e) t r ↔ t = [⟨e, r⟩] := by
  constructor
  · intro h
    obtain ⟨r', t', rfl, h'⟩ := exec_call.mp h
    obtain ⟨rfl, rfl⟩ := exec_ret.mp h'
    rfl
  · rintro rfl
    exact .call r (.ret r)

/-- `Performs p t e`: after the operations of `t`, with the replies that `t` records, `p` performs
`e`. -/
inductive Performs : Program E R α → List (Event E R) → E → Prop
  | head (e : E) (k : R e → Program E R α) : Performs (.call e k) [] e
  | tail {e e' : E} {k : R e → Program E R α} {t : List (Event E R)} (r : R e)
      (next : Performs (k r) t e') : Performs (.call e k) (⟨e, r⟩ :: t) e'

theorem not_performs_ret {a : α} {t : List (Event E R)} {e : E} :
    ¬Performs (ret a : Program E R α) t e := nofun

theorem performs_call {e e' : E} {k : R e → Program E R α} {t : List (Event E R)} :
    Performs (call e k) t e' ↔ t = [] ∧ e' = e ∨ ∃ r t', t = ⟨e, r⟩ :: t' ∧
      Performs (k r) t' e' := by
  constructor
  · rintro (⟨⟩ | ⟨r, h⟩)
    · exact .inl ⟨rfl, rfl⟩
    · exact .inr ⟨r, _, rfl, h⟩
  · rintro (⟨rfl, rfl⟩ | ⟨r, t', rfl, h⟩)
    · exact .head _ _
    · exact .tail r h

theorem performs_bind {p : Program E R α} {f : α → Program E R β} {t : List (Event E R)} {e : E} :
    Performs (p >>= f) t e ↔
      Performs p t e ∨ ∃ t₁ a t₂, t = t₁ ++ t₂ ∧ Exec p t₁ a ∧ Performs (f a) t₂ e := by
  constructor
  · intro h
    induction p generalizing t with
    | ret a => exact .inr ⟨[], a, t, rfl, .ret a, h⟩
    | call e' k ih =>
      rcases performs_call.mp h with ⟨rfl, rfl⟩ | ⟨r, t', rfl, h'⟩
      · exact .inl (.head _ _)
      · rcases ih r h' with hp | ⟨t₁, a, t₂, rfl, h₁, h₂⟩
        · exact .inl (.tail r hp)
        · exact .inr ⟨⟨e', r⟩ :: t₁, a, t₂, rfl, .call r h₁, h₂⟩
  · rintro (h | ⟨t₁, a, t₂, rfl, h₁, h₂⟩)
    · induction h with
      | head e k => exact .head _ _
      | tail r _ ih => exact .tail r ih
    · induction h₁ with
      | ret a => exact h₂
      | call r _ ih => exact .tail r (ih h₂)

theorem performs_bind_ret {p : Program E R α} {f : α → β} {t : List (Event E R)} {e : E} :
    Performs (p >>= fun a => ret (f a)) t e ↔ Performs p t e := by
  constructor
  · intro h
    rcases performs_bind.mp h with hp | ⟨_, _, _, -, -, hret⟩
    · exact hp
    · exact absurd hret not_performs_ret
  · exact fun hp => performs_bind.mpr (.inl hp)

/-- An operation that the first program does not perform is one of the second. -/
theorem Performs.second {p : Program E R α} {f : α → Program E R β} {t : List (Event E R)} {e : E}
    (h : Performs (p >>= f) t e) (hp : ∀ t, ¬Performs p t e) :
    ∃ t₁ a t₂, t = t₁ ++ t₂ ∧ Exec p t₁ a ∧ Performs (f a) t₂ e :=
  (performs_bind.mp h).resolve_left (hp t)

theorem Performs.before {p : Program E R α} {t t' : List (Event E R)} {ev : Event E R} {e : E}
    (h : Performs p (t ++ ev :: t') e) : Performs p t ev.op := by
  induction t generalizing p with
  | nil =>
    cases h with
    | tail r _ => exact .head _ _
  | cons ev' t ih =>
    cases h with
    | tail r h => exact .tail r (ih h)

/-- The trace and the result of a program whose operations get the replies of `ρ`. -/
def answering (ρ : (e : E) → R e) : Program E R α → List (Event E R) × α
  | .ret a => ([], a)
  | .call e k => (⟨e, ρ e⟩ :: (answering ρ (k (ρ e))).1, (answering ρ (k (ρ e))).2)

theorem exec_answering (ρ : (e : E) → R e) (p : Program E R α) :
    Exec p (answering ρ p).1 (answering ρ p).2 := by
  induction p with
  | ret a => exact .ret a
  | call e k ih => exact .call (ρ e) (ih (ρ e))

theorem mem_answering {ρ : (e : E) → R e} {p : Program E R α} :
    ∀ ev ∈ (answering ρ p).1, ev.reply = ρ ev.op := by
  induction p with
  | ret a => simp [answering]
  | call e k ih =>
    intro ev hev
    rcases List.mem_cons.mp hev with rfl | htail
    · rfl
    · exact ih (ρ e) ev htail

theorem forall_mem_answering {ρ : (e : E) → R e} {P : Event E R → Prop} (h : ∀ e, P ⟨e, ρ e⟩)
    (p : Program E R α) : ∀ ev ∈ (answering ρ p).1, P ev := by
  intro ev hev
  obtain ⟨op, reply⟩ := ev
  obtain rfl : reply = ρ op := mem_answering _ hev
  exact h op

theorem mem_answering_of_op {ρ : (e : E) → R e} {p : Program E R α} {e : E}
    (h : e ∈ (answering ρ p).1.map Event.op) : ⟨e, ρ e⟩ ∈ (answering ρ p).1 := by
  obtain ⟨ev, hev, rfl⟩ := List.mem_map.mp h
  rw [← mem_answering ev hev]
  exact hev

@[simp] theorem answering_ret (ρ : (e : E) → R e) (a : α) :
    answering ρ (ret a : Program E R α) = ([], a) := rfl

@[simp] theorem answering_call (ρ : (e : E) → R e) (e : E) (k : R e → Program E R α) :
    answering ρ (call e k) =
      (⟨e, ρ e⟩ :: (answering ρ (k (ρ e))).1, (answering ρ (k (ρ e))).2) := rfl

theorem answering_bind (ρ : (e : E) → R e) (p : Program E R α) (f : α → Program E R β) :
    answering ρ (p >>= f) =
      ((answering ρ p).1 ++ (answering ρ (f (answering ρ p).2)).1,
        (answering ρ (f (answering ρ p).2)).2) := by
  induction p with
  | ret a => rfl
  | call e k ih =>
    rw [call_bind, answering_call, ih]
    rfl

/-- The operations of a program that gets the replies of `ρ`. -/
def performed (ρ : (e : E) → R e) (p : Program E R α) : List E := (answering ρ p).1.map Event.op

@[simp] theorem performed_ret (ρ : (e : E) → R e) (a : α) :
    performed ρ (ret a : Program E R α) = [] := rfl

@[simp] theorem performed_call (ρ : (e : E) → R e) (e : E) (k : R e → Program E R α) :
    performed ρ (call e k) = e :: performed ρ (k (ρ e)) := rfl

theorem performed_bind (ρ : (e : E) → R e) (p : Program E R α) (f : α → Program E R β) :
    performed ρ (p >>= f) = performed ρ p ++ performed ρ (f (answering ρ p).2) := by
  rw [performed, answering_bind, List.map_append]
  rfl

/-- A handler whose replies do not depend on the state moves it by the operations one after the
other. -/
theorem run_answering (ρ : (e : E) → R e) (f : S → E → S) (p : Program E R α) (s : S) :
    p.run (fun e s => (ρ e, f s e)) s = ((answering ρ p).2, (performed ρ p).foldl f s) := by
  induction p generalizing s with
  | ret a => rfl
  | call e k ih => exact ih (ρ e) (f s e)

/-- Every operation that `p` may perform, whatever the replies, satisfies `P`. -/
def Always (P : E → Prop) : Program E R α → Prop
  | .ret _ => True
  | .call e k => P e ∧ ∀ r, (k r).Always P

@[simp] theorem always_ret (P : E → Prop) (a : α) : (ret a : Program E R α).Always P := trivial

@[simp] theorem always_call {P : E → Prop} {e : E} {k : R e → Program E R α} :
    (call e k).Always P ↔ P e ∧ ∀ r, (k r).Always P := Iff.rfl

theorem Always.bind {P : E → Prop} {p : Program E R α} {f : α → Program E R β} (hp : p.Always P)
    (hf : ∀ a, (f a).Always P) : (p >>= f).Always P := by
  induction p with
  | ret a => exact hf a
  | call e k ih => exact ⟨hp.1, fun r => ih r (hp.2 r)⟩

theorem Always.mono {P Q : E → Prop} {p : Program E R α} (hp : p.Always P) (h : ∀ e, P e → Q e) :
    p.Always Q := by
  induction p with
  | ret a => trivial
  | call e k ih => exact ⟨h _ hp.1, fun r => ih r (hp.2 r)⟩

theorem always_ite {P : E → Prop} {c : Prop} [Decidable c] {p q : Program E R α} :
    (if c then p else q).Always P ↔ (c → p.Always P) ∧ (¬c → q.Always P) := by
  by_cases h : c <;> simp [h]

theorem Always.exec {P : E → Prop} {p : Program E R α} (hp : p.Always P) {t : List (Event E R)}
    {a : α} (h : Exec p t a) : ∀ ev ∈ t, P ev.op := by
  induction h with
  | ret a => simp
  | call r _ ih =>
    intro ev hev
    rcases List.mem_cons.mp hev with rfl | htail
    · exact hp.1
    · exact ih (hp.2 r) ev htail

theorem Always.exec_op {P : E → Prop} {p : Program E R α} (hp : p.Always P)
    {t : List (Event E R)} {a : α} (h : Exec p t a) {e : E} (he : e ∈ t.map Event.op) : P e := by
  obtain ⟨ev, hev, rfl⟩ := List.mem_map.mp he
  exact hp.exec h ev hev

theorem Always.performs {P : E → Prop} {p : Program E R α} (hp : p.Always P)
    {t : List (Event E R)} {e : E} (h : Performs p t e) : P e := by
  induction h with
  | head e k => exact hp.1
  | tail r _ ih => exact ih (hp.2 r)

/-- Every result of `p`, whatever the replies, satisfies `Q`. -/
def Returns (Q : α → Prop) : Program E R α → Prop
  | .ret a => Q a
  | .call _ k => ∀ r, (k r).Returns Q

@[simp] theorem returns_ret (Q : α → Prop) (a : α) : (ret a : Program E R α).Returns Q ↔ Q a :=
  Iff.rfl

@[simp] theorem returns_call {Q : α → Prop} {e : E} {k : R e → Program E R α} :
    (call e k).Returns Q ↔ ∀ r, (k r).Returns Q := Iff.rfl

theorem Returns.bind {P : α → Prop} {Q : β → Prop} {p : Program E R α} {f : α → Program E R β}
    (hp : p.Returns P) (hf : ∀ a, P a → (f a).Returns Q) : (p >>= f).Returns Q := by
  induction p with
  | ret a => exact hf a hp
  | call e k ih => exact fun r => ih r (hp r)

theorem returns_true (p : Program E R α) : p.Returns fun _ => True := by
  induction p with
  | ret a => trivial
  | call e k ih => exact ih

theorem Returns.exec {Q : α → Prop} {p : Program E R α} (hp : p.Returns Q) {t : List (Event E R)}
    {a : α} (h : Exec p t a) : Q a := by
  induction h with
  | ret a => exact hp
  | call r _ ih => exact ih (hp r)

/-- `body` for each element of a list, in order. -/
def forEach (body : β → Program E R Unit) : List β → Program E R Unit
  | [] => .ret ()
  | x :: xs => do
    body x
    forEach body xs

@[simp] theorem forEach_nil (body : β → Program E R Unit) : forEach body [] = .ret () := rfl

@[simp] theorem forEach_cons (body : β → Program E R Unit) (x : β) (xs : List β) :
    forEach body (x :: xs) = (body x >>= fun _ => forEach body xs) := rfl

theorem Always.forEach {P : E → Prop} {body : β → Program E R Unit} {xs : List β}
    (h : ∀ x ∈ xs, (body x).Always P) : (forEach body xs).Always P := by
  induction xs with
  | nil => trivial
  | cons x xs ih =>
    exact (h x (by simp)).bind fun _ => ih fun y hy => h y (by simp [hy])

/-- A loop whose rounds perform known operations when all replies are good performs them all. -/
theorem exec_forEach_ops {good : Event E R → Prop} {body : β → Program E R Unit} {ops : β → List E}
    {xs : List β} {t : List (Event E R)} (h : Exec (forEach body xs) t ())
    (hgood : ∀ ev ∈ t, good ev)
    (hbody : ∀ x ∈ xs, ∀ t', Exec (body x) t' () → (∀ ev ∈ t', good ev) → t'.map Event.op = ops x) :
    t.map Event.op = xs.flatMap ops := by
  induction xs generalizing t with
  | nil =>
    obtain ⟨rfl, -⟩ := exec_ret.mp h
    rfl
  | cons x xs ih =>
    obtain ⟨t₁, _, t₂, rfl, h₁, h₂⟩ := exec_bind.mp h
    have hx := hbody x (by simp) t₁ h₁ fun ev hev => hgood ev (by simp [hev])
    have hxs := ih h₂ (fun ev hev => hgood ev (by simp [hev])) fun y hy => hbody y (by simp [hy])
    rw [List.map_append, hx, hxs, List.flatMap_cons]

theorem exec_forEach_mem {body : β → Program E R Unit} {xs : List β} {t : List (Event E R)}
    (h : Exec (forEach body xs) t ()) {x : β} (hx : x ∈ xs) :
    ∃ t', Exec (body x) t' () ∧ ∀ ev ∈ t', ev ∈ t := by
  induction xs generalizing t with
  | nil => cases hx
  | cons y ys ih =>
    obtain ⟨t₁, _, t₂, rfl, h₁, h₂⟩ := exec_bind.mp h
    rcases List.mem_cons.mp hx with rfl | hys
    · exact ⟨t₁, h₁, fun ev hev => List.mem_append_left _ hev⟩
    · obtain ⟨t', ht', hsub⟩ := ih h₂ hys
      exact ⟨t', ht', fun ev hev => List.mem_append_right _ (hsub ev hev)⟩

theorem exec_forEach_of_mem {body : β → Program E R Unit} {xs : List β} {t : List (Event E R)}
    (h : Exec (forEach body xs) t ()) {ev : Event E R} (hev : ev ∈ t) :
    ∃ x ∈ xs, ∃ t', Exec (body x) t' () ∧ ev ∈ t' ∧ ∀ ev' ∈ t', ev' ∈ t := by
  induction xs generalizing t with
  | nil =>
    obtain ⟨rfl, -⟩ := exec_ret.mp h
    cases hev
  | cons x xs ih =>
    obtain ⟨t₁, _, t₂, rfl, h₁, h₂⟩ := exec_bind.mp h
    rcases List.mem_append.mp hev with hev | hev
    · exact ⟨x, by simp, t₁, h₁, hev, fun ev' hev' => List.mem_append_left _ hev'⟩
    · obtain ⟨y, hy, t', ht', hmem, hsub⟩ := ih h₂ hev
      exact ⟨y, by simp [hy], t', ht', hmem, fun ev' hev' => List.mem_append_right _
        (hsub ev' hev')⟩

theorem performs_forEach {body : β → Program E R Unit} {xs : List β} {t : List (Event E R)} {e : E}
    (h : Performs (forEach body xs) t e) :
    ∃ x ∈ xs, ∃ t₁ t₂, t = t₁ ++ t₂ ∧ Performs (body x) t₂ e := by
  induction xs generalizing t with
  | nil => exact absurd h not_performs_ret
  | cons x xs ih =>
    rcases performs_bind.mp h with hx | ⟨t₁, _, t₂, rfl, -, hxs⟩
    · exact ⟨x, List.mem_cons_self, [], t, rfl, hx⟩
    · obtain ⟨y, hy, t₃, t₄, rfl, hbody⟩ := ih hxs
      exact ⟨y, List.mem_cons_of_mem _ hy, t₁ ++ t₃, t₄, (List.append_assoc ..).symm, hbody⟩

/-- `body` for each element of a list, in order, on an accumulator. -/
def foldEach (body : α → β → Program E R α) : α → List β → Program E R α
  | a, [] => .ret a
  | a, x :: xs => do
    let a' ← body a x
    foldEach body a' xs

@[simp] theorem foldEach_nil (body : α → β → Program E R α) (a : α) :
    foldEach body a [] = .ret a := rfl

@[simp] theorem foldEach_cons (body : α → β → Program E R α) (a : α) (x : β) (xs : List β) :
    foldEach body a (x :: xs) = (body a x >>= fun a' => foldEach body a' xs) := rfl

theorem Always.foldEach {P : E → Prop} {body : α → β → Program E R α} {xs : List β}
    (h : ∀ a, ∀ x ∈ xs, (body a x).Always P) (a : α) : (foldEach body a xs).Always P := by
  induction xs generalizing a with
  | nil => trivial
  | cons x xs ih => exact (h a x (by simp)).bind fun b => ih (fun b y hy => h b y (by simp [hy])) b

theorem Returns.foldEach {I : α → Prop} {body : α → β → Program E R α} {xs : List β}
    {a : α} (ha : I a)
    (h : ∀ a, ∀ x ∈ xs, I a → (body a x).Returns I) : (foldEach body a xs).Returns I := by
  induction xs generalizing a with
  | nil => exact ha
  | cons x xs ih =>
    exact (h a x (by simp) ha).bind fun a' ha' => ih ha' fun a y hy => h a y (by simp [hy])

/-- A loop that keeps what its body returns for some elements is one run of the body for each. -/
theorem exec_foldEach_collect {δ : Type} {body : β → Program E R (Option δ)} {xs : List β}
    {a : List δ} {t : List (Event E R)} {ys : List δ}
    (h : Exec (foldEach (fun a x => body x >>= fun y => ret (a ++ y.toList)) a xs) t ys) :
    ∃ runs, List.Forall₂ (fun x run => Exec (body x) run.1 run.2) xs runs ∧
      t = (runs.map Prod.fst).flatten ∧ ys = a ++ runs.filterMap Prod.snd := by
  induction xs generalizing a t with
  | nil =>
    obtain ⟨rfl, rfl⟩ := exec_ret.mp h
    exact ⟨[], .nil, rfl, by simp⟩
  | cons x xs ih =>
    obtain ⟨t₁, b, t₂, rfl, hbody, hrest⟩ := exec_bind.mp h
    obtain ⟨y, hy, rfl⟩ := exec_bind_ret.mp hbody
    obtain ⟨runs, hruns, rfl, rfl⟩ := ih hrest
    refine ⟨(t₁, y) :: runs, .cons hy hruns, rfl, ?_⟩
    cases y <;> simp

end Program
