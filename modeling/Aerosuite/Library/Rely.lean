import Aerosuite.Library.Interleaving

/-! What a program guarantees when its environment replies as expected.  `Within` is `FollowsTo` for
the replies that are possible.  When the threads of a run stay within their protocols, and every
step that a protocol allows keeps an invariant of the store and gets a possible reply, the invariant
holds throughout the run. -/

namespace Program

variable {ι E S G α β : Type} {R : E → Type}

section Trace

variable {allowed : G → E → Prop} {next : G → Event E R → G} {g : G} {p : Program E R α}

/-- An operation that a program performs is allowed in the state that the events before it led
to. -/
theorem Follows.performs (hp : Follows allowed next g p) {t : List (Event E R)} {e : E}
    (h : Performs p t e) : allowed (t.foldl next g) e := by
  induction h generalizing g with
  | head e k => exact hp.1
  | tail r _ ih => exact ih (hp.2 r)

theorem Follows.followsTo (hp : Follows allowed next g p) :
    FollowsTo allowed next (fun _ _ => True) g p := by
  induction p generalizing g with
  | ret a => trivial
  | call e k ih => exact ⟨hp.1, fun r => ih r (hp.2 r)⟩

theorem FollowsTo.exec {Q : G → α → Prop} (hp : FollowsTo allowed next Q g p)
    {t : List (Event E R)} {a : α} (h : Exec p t a) : Q (t.foldl next g) a := by
  induction h generalizing g with
  | ret a => exact hp
  | call r _ ih => exact ih (hp.2 r)

/-- The protocol whose states are the events so far. -/
def record (t : List (Event E R)) (ev : Event E R) : List (Event E R) := t ++ [ev]

theorem foldl_record (t u : List (Event E R)) : u.foldl record t = t ++ u := by
  induction u generalizing t with
  | nil => exact (List.append_nil t).symm
  | cons ev u ih => rw [List.foldl_cons, ih, record, List.append_assoc, List.singleton_append]

end Trace

section Within

variable (possible : (e : E) → R e → Prop) (allowed : G → E → Prop) (next : G → Event E R → G)

/-- Started in a state of the protocol and given possible replies, the program performs allowed
operations only, and returns in a state and with a result that satisfy `Q`. -/
def Within (Q : G → α → Prop) : G → Program E R α → Prop
  | g, .ret a => Q g a
  | g, .call e k => allowed g e ∧ ∀ r, possible e r → Within Q (next g ⟨e, r⟩) (k r)

variable {possible allowed next} {Q : G → α → Prop} {Q' : G → β → Prop} {g : G}
  {p : Program E R α} {f : α → Program E R β}

theorem FollowsTo.within (hp : FollowsTo allowed next Q g p) :
    Within possible allowed next Q g p := by
  induction p generalizing g with
  | ret a => exact hp
  | call e k ih => exact ⟨hp.1, fun r _ => ih r (hp.2 r)⟩

theorem Within.bind (hp : Within possible allowed next Q g p)
    (hf : ∀ g a, Q g a → Within possible allowed next Q' g (f a)) :
    Within possible allowed next Q' g (p >>= f) := by
  induction p generalizing g with
  | ret a => exact hf g a hp
  | call e k ih => exact ⟨hp.1, fun r hr => ih r (hp.2 r hr)⟩

theorem Within.mono {Q₁ : G → α → Prop} {allowed₁ : G → E → Prop}
    (hp : Within possible allowed next Q g p) (hallowed : ∀ g e, allowed g e → allowed₁ g e)
    (hQ : ∀ g a, Q g a → Q₁ g a) : Within possible allowed₁ next Q₁ g p := by
  induction p generalizing g with
  | ret a => exact hQ g a hp
  | call e k ih => exact ⟨hallowed g e hp.1, fun r hr => ih r (hp.2 r hr)⟩

/-- Two guarantees of one program hold together. -/
theorem Within.and {Q₁ : G → α → Prop} {allowed₁ : G → E → Prop}
    (hp : Within possible allowed next Q g p) (hp₁ : Within possible allowed₁ next Q₁ g p) :
    Within possible (fun g e => allowed g e ∧ allowed₁ g e) next (fun g a => Q g a ∧ Q₁ g a) g
      p := by
  induction p generalizing g with
  | ret a => exact ⟨hp, hp₁⟩
  | call e k ih => exact ⟨⟨hp.1, hp₁.1⟩, fun r hr => ih r (hp.2 r hr) (hp₁.2 r hr)⟩

theorem Within.forEach {I : G → Prop} {body : β → Program E R Unit} {xs : List β} (hg : I g)
    (hbody : ∀ x ∈ xs, ∀ g, I g → Within possible allowed next (fun g _ => I g) g (body x)) :
    Within possible allowed next (fun g _ => I g) g (Program.forEach body xs) := by
  induction xs generalizing g with
  | nil => exact hg
  | cons x xs ih =>
    rw [forEach_cons]
    exact (hbody x (by simp) g hg).bind fun g _ hg => ih hg fun y hy => hbody y (by simp [hy])

end Within

section Run

variable [DecidableEq ι] {h : ι → (e : E) → S → R e × S} {init : ι → Program E R α} {s₀ s : S}
  {hist : List (Step ι E R S)} {threads : ι → Program E R α}
  {possible : ι → (e : E) → R e → Prop} {allowed : ι → G → E → Prop}
  {next : ι → G → Event E R → G} {Q : ι → G → α → Prop} {g₀ : ι → G}

/-- A thread returns what it would alone with the replies that it has got and will get. -/
theorem Interleaved.exec_init (run : Interleaved h init s₀ hist threads s) {i : ι}
    {t : List (Event E R)} {a : α} (hexec : Exec (threads i) t a) :
    Exec (init i) (performedBy i hist ++ t) a := by
  induction run generalizing t with
  | start => exact hexec
  | @step hist threads s run j e k hj ih =>
    rw [performedBy, List.append_assoc]
    by_cases hi : j = i
    · subst hi
      rw [Function.update_self] at hexec
      rw [if_pos rfl]
      exact ih (hj ▸ Exec.call _ hexec)
    · rw [if_neg hi]
      rw [Function.update_of_ne (Ne.symm hi)] at hexec
      exact ih hexec

theorem mem_performedBy {i : ι} {ev : Event E R} :
    ev ∈ performedBy i hist ↔ ∃ st ∈ hist, st.who = i ∧ st.event = ev := by
  induction hist with
  | nil => simp [performedBy]
  | cons st hist ih =>
    rw [performedBy, List.mem_append, ih]
    by_cases hi : st.who = i
    · simp [hi, or_comm, eq_comm]
    · simp [hi]

/-- The rule of rely and guarantee: each thread may rely on possible replies, since the steps of all
threads keep the invariant.  `Good` is what is assumed of the run. -/
theorem Interleaved.within (Good I : List (Step ι E R S) → S → Prop)
    (run : Interleaved h init s₀ hist threads s)
    (hinit : ∀ i, Within (possible i) (allowed i) (next i) (Q i) (g₀ i) (init i)) (h₀ : I [] s₀)
    (hbefore : ∀ st hist s, Good (st :: hist) s → Good hist st.before)
    (hstep : ∀ hist s i e, I hist s → allowed i (protocolState next g₀ hist i) e →
      Good (⟨i, ⟨e, (h i e s).1⟩, s⟩ :: hist) (h i e s).2 →
      possible i e (h i e s).1 ∧ I (⟨i, ⟨e, (h i e s).1⟩, s⟩ :: hist) (h i e s).2)
    (hgood : Good hist s) :
    I hist s ∧ ∀ i, Within (possible i) (allowed i) (next i) (Q i) (protocolState next g₀ hist i)
      (threads i) := by
  induction run with
  | start => exact ⟨h₀, hinit⟩
  | @step hist threads s run j e k hj ih =>
    obtain ⟨hI, hthreads⟩ := ih (hbefore _ _ _ hgood)
    have hwithin := hthreads j
    rw [hj] at hwithin
    obtain ⟨hpossible, hI'⟩ := hstep hist s j e hI hwithin.1 hgood
    refine ⟨hI', fun i => ?_⟩
    rw [protocolState]
    by_cases hi : j = i
    · subst hi
      simpa using hwithin.2 _ hpossible
    · rw [if_neg hi, Function.update_of_ne (Ne.symm hi)]
      exact hthreads i

end Run

end Program
