import Aerosuite.Library.Rely

/-! Programs that may fail: after a failure they perform no operation.  `Obeys` is `FollowsTo` for
them, and says nothing of what a program that failed leaves behind; `Ends` says what a run on a
handler leaves behind in both cases. -/

namespace Program

variable {E : Type} {R : E → Type} {G S ε α β : Type}

/-- A program that returns a value or fails with an error. -/
abbrev Fallible (ε E : Type) (R : E → Type) := ExceptT ε (Program E R)

section Obeys

variable (allowed : G → E → Prop) (next : G → Event E R → G)

/-- The program performs allowed operations only, and a value that it returns satisfies `Q`. -/
def Obeys (Q : G → α → Prop) (g : G) (p : Fallible ε E R α) : Prop :=
  FollowsTo allowed next (fun g r => ∀ a, r = .ok a → Q g a) g p.run

variable {allowed next} {Q : G → α → Prop} {Q' : G → β → Prop} {g : G}

theorem obeys_pure {a : α} (h : Q g a) :
    Obeys allowed next Q g (pure a : Fallible ε E R α) := by
  rintro _ ⟨⟩
  exact h

theorem obeys_throw (e : ε) : Obeys allowed next Q g (throw e : Fallible ε E R α) := by
  rintro _ ⟨⟩

theorem Obeys.bind {p : Fallible ε E R α} {f : α → Fallible ε E R β}
    (hp : Obeys allowed next Q g p) (hf : ∀ g a, Q g a → Obeys allowed next Q' g (f a)) :
    Obeys allowed next Q' g (p >>= f) := by
  rw [Obeys, ExceptT.run_bind]
  refine FollowsTo.bind hp fun g r hr => ?_
  cases r with
  | ok a => exact hf g a (hr a rfl)
  | error e => rintro _ ⟨⟩

theorem Obeys.mono {Q₁ : G → α → Prop} {p : Fallible ε E R α} (hp : Obeys allowed next Q g p)
    (h : ∀ g a, Q g a → Q₁ g a) : Obeys allowed next Q₁ g p :=
  FollowsTo.mono hp fun g _ hr a ha => h g a (hr a ha)

end Obeys

/-- A fallible program goes on from where its first part ended, unless that failed. -/
theorem run_try (h : (e : E) → S → R e × S) (p : Fallible ε E R α) (f : α → Fallible ε E R β)
    (s : S) : (p >>= f).run.run h s =
      match p.run.run h s with
      | (.ok a, s') => (f a).run.run h s'
      | (.error e, s') => (.error e, s') := by
  rw [ExceptT.run_bind, run_bind]
  generalize p.run.run h s = reached
  obtain ⟨r, s'⟩ := reached
  cases r <;> rfl

theorem always_try {P : E → Prop} {p : Fallible ε E R α} {f : α → Fallible ε E R β}
    (hp : p.run.Always P) (hf : ∀ a, (f a).run.Always P) : (p >>= f).run.Always P := by
  rw [ExceptT.run_bind]
  refine hp.bind fun r => ?_
  cases r with
  | ok a => exact hf a
  | error e => trivial

theorem always_lift {P : E → Prop} {p : Program E R α} (hp : p.Always P) :
    (liftM p : Fallible ε E R α).run.Always P :=
  hp.bind fun _ => trivial

theorem always_adapt {P : E → Prop} {ε' : Type} {p : Fallible ε E R α} (g : ε → ε')
    (hp : p.run.Always P) : (ExceptT.adapt g p : Fallible ε' E R α).run.Always P :=
  hp.bind fun _ => trivial

section Ends

variable (h : (e : E) → S → R e × S)

/-- Run on a handler from a state, the program ends with a value and a state that satisfy `Q`, or
with an error and a state that satisfy `F`. -/
def Ends (Q : α → S → Prop) (F : ε → S → Prop) (s : S) (p : Fallible ε E R α) : Prop :=
  match p.run.run h s with
  | (.ok a, s') => Q a s'
  | (.error e, s') => F e s'

variable {h} {Q : α → S → Prop} {Q' : β → S → Prop} {F : ε → S → Prop} {s : S}
  {p : Fallible ε E R α} {f : α → Fallible ε E R β}

theorem ends_pure {a : α} (hQ : Q a s) : Ends h Q F s (pure a : Fallible ε E R α) := hQ

theorem ends_throw {e : ε} (hF : F e s) : Ends h Q F s (throw e : Fallible ε E R α) := hF

theorem ends_perform {e : E} {Q : R e → S → Prop} (hQ : Q (h e s).1 (h e s).2) :
    Ends h Q F s (liftM (perform e) : Fallible ε E R (R e)) := hQ

theorem Ends.bind (hp : Ends h Q F s p) (hf : ∀ a s', Q a s' → Ends h Q' F s' (f a)) :
    Ends h Q' F s (p >>= f) := by
  rw [Ends, run_try]
  rw [Ends] at hp
  generalize p.run.run h s = reached at hp
  obtain ⟨r, s'⟩ := reached
  cases r with
  | ok a => exact hf a s' hp
  | error e => exact hp

theorem Ends.mono {Q₁ : α → S → Prop} {F₁ : ε → S → Prop} (hp : Ends h Q F s p)
    (hQ : ∀ a s', Q a s' → Q₁ a s') (hF : ∀ e s', F e s' → F₁ e s') : Ends h Q₁ F₁ s p := by
  rw [Ends] at hp ⊢
  generalize p.run.run h s = reached at hp
  obtain ⟨r, s'⟩ := reached
  cases r with
  | ok a => exact hQ a s' hp
  | error e => exact hF e s' hp

/-- What a program ends with is what its run reaches. -/
theorem Ends.reached {P : Except ε α × S → Prop}
    (hp : Ends h (fun a s' => P (.ok a, s')) (fun e s' => P (.error e, s')) s p) :
    P (p.run.run h s) := by
  rw [Ends] at hp
  generalize p.run.run h s = reached at hp
  obtain ⟨r, s'⟩ := reached
  cases r with
  | ok a => exact hp
  | error e => exact hp

end Ends

section Yields

variable {t : List (Event E R)} {p : Fallible ε E R α} {f : α → Fallible ε E R β} {a : α}

theorem exec_ok_pure {b : α} :
    Exec (pure a : Fallible ε E R α).run t (.ok b) ↔ t = [] ∧ b = a := by
  rw [ExceptT.run_pure, pure_eq_ret, exec_ret, Except.ok.injEq]

theorem exec_ok_throw {e : ε} : ¬Exec (throw e : Fallible ε E R α).run t (.ok a) := fun h => by
  cases (exec_ret.mp h).2

theorem exec_ok_lift {q : Program E R α} :
    Exec (liftM q : Fallible ε E R α).run t (.ok a) ↔ Exec q t a := by
  refine exec_bind_ret.trans ⟨?_, fun h => ⟨a, h, rfl⟩⟩
  rintro ⟨b, h, hb⟩
  rwa [Except.ok.inj hb]

/-- A fallible program that returns a value has gone on from its first part. -/
theorem exec_ok_bind {b : β} : Exec (p >>= f).run t (.ok b) ↔
    ∃ t₁ a t₂, t = t₁ ++ t₂ ∧ Exec p.run t₁ (.ok a) ∧ Exec (f a).run t₂ (.ok b) := by
  rw [ExceptT.run_bind, exec_bind]
  constructor
  · rintro ⟨t₁, r, t₂, rfl, hp, hf⟩
    cases r with
    | ok a => exact ⟨t₁, a, t₂, rfl, hp, hf⟩
    | error e => cases (exec_ret.mp hf).2
  · rintro ⟨t₁, a, t₂, rfl, hp, hf⟩
    exact ⟨t₁, .ok a, t₂, rfl, hp, hf⟩

variable (possible : (e : E) → R e → Prop)

/-- Given possible replies, a value that the program returns satisfies `Q`. -/
def Yields (Q : α → Prop) (p : Fallible ε E R α) : Prop :=
  ∀ t a, Exec p.run t (.ok a) → (∀ ev ∈ t, possible ev.op ev.reply) → Q a

variable {possible} {Q : α → Prop} {Q' : β → Prop}

theorem yields_pure (h : Q a) : Yields possible Q (pure a : Fallible ε E R α) := by
  intro t b hexec _
  rwa [(exec_ok_pure.mp hexec).2]

theorem yields_throw (e : ε) : Yields possible Q (throw e : Fallible ε E R α) :=
  fun _ _ hexec _ => absurd hexec exec_ok_throw

theorem yields_perform {e : E} {Q : R e → Prop} (h : ∀ r, possible e r → Q r) :
    Yields possible Q (liftM (perform e) : Fallible ε E R (R e)) := by
  intro t r hexec hreplies
  obtain rfl := exec_perform.mp (exec_ok_lift.mp hexec)
  exact h r (hreplies _ List.mem_cons_self)

theorem Yields.mono {Q₁ : α → Prop} (hp : Yields possible Q p) (h : ∀ a, Q a → Q₁ a) :
    Yields possible Q₁ p :=
  fun t a hexec hreplies => h a (hp t a hexec hreplies)

theorem Yields.bind (hp : Yields possible Q p) (hf : ∀ a, Q a → Yields possible Q' (f a)) :
    Yields possible Q' (p >>= f) := by
  intro t b hexec hreplies
  obtain ⟨t₁, a, t₂, rfl, h₁, h₂⟩ := exec_ok_bind.mp hexec
  obtain ⟨hreplies₁, hreplies₂⟩ := List.forall_mem_append.mp hreplies
  exact hf a (hp t₁ a h₁ hreplies₁) t₂ b h₂ hreplies₂

/-- A loop yields one value for each element. -/
theorem Yields.mapM {γ : Type} {body : γ → Fallible ε E R α} {Q : γ → α → Prop} {xs : List γ}
    (h : ∀ x ∈ xs, Yields possible (Q x) (body x)) :
    Yields possible (List.Forall₂ Q xs) (xs.mapM body) := by
  induction xs with
  | nil => exact yields_pure .nil
  | cons x xs ih =>
    rw [List.mapM_cons]
    refine (h x List.mem_cons_self).bind fun a ha => ?_
    refine (ih fun y hy => h y (List.mem_cons_of_mem x hy)).bind fun as has => ?_
    exact yields_pure (.cons ha has)

/-- A failure of the program may get other texts. -/
theorem Yields.adapt {ε' : Type} (hp : Yields possible Q p) (g : ε → ε') :
    Yields possible Q (ExceptT.adapt g p : Fallible ε' E R α) := by
  intro t a hexec hreplies
  obtain ⟨r, hr, ha⟩ := exec_bind_ret.mp hexec
  cases r with
  | ok b =>
    obtain rfl : a = b := Except.ok.inj ha
    exact hp t a hr hreplies
  | error e => cases ha

/-- A failure of the program may be replaced by a value. -/
theorem Yields.recover {c : α} (hp : Yields possible Q p) (hc : Q c) :
    Yields possible Q (tryCatch p fun _ => pure c) := by
  intro t a hexec hreplies
  obtain ⟨t₁, r, t₂, rfl, hr, hrest⟩ := exec_bind.mp hexec
  cases r with
  | ok b =>
    obtain ⟨rfl, hb⟩ := exec_ret.mp hrest
    obtain rfl : a = b := Except.ok.inj hb
    exact hp t₁ a hr (by simpa using hreplies)
  | error e =>
    obtain ⟨rfl, hb⟩ := exec_ret.mp hrest
    obtain rfl : a = c := Except.ok.inj hb
    exact hc

end Yields

end Program
