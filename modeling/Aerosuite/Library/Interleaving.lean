import Aerosuite.Library.Program
import Mathlib.Logic.Function.Basic

/-! Programs that run side by side on one store, whose operations interleave in any order.  What a
thread may do next is bounded by `Follows`: a program follows a protocol when each operation that it
performs is allowed in the protocol state that its own events so far led to. -/

namespace Program

variable {ι E S G α : Type} {R : E → Type}

section Follows

variable (allowed : G → E → Prop) (next : G → Event E R → G)

/-- Started in a state of the protocol, the program performs allowed operations only. -/
def Follows : G → Program E R α → Prop
  | _, .ret _ => True
  | g, .call e k => allowed g e ∧ ∀ r, Follows (next g ⟨e, r⟩) (k r)

variable {allowed next}

theorem Follows.mono {allowed' : G → E → Prop} {g : G} {p : Program E R α}
    (hp : Follows allowed next g p) (h : ∀ g e, allowed g e → allowed' g e) :
    Follows allowed' next g p := by
  induction p generalizing g with
  | ret a => trivial
  | call e k ih => exact ⟨h g e hp.1, fun r => ih r (hp.2 r)⟩

theorem follows_of_forall {g : G} {p : Program E R α} (h : ∀ g e, allowed g e) :
    Follows allowed next g p := by
  induction p generalizing g with
  | ret a => trivial
  | call e k ih => exact ⟨h g e, fun r => ih r⟩

theorem Follows.bind {β : Type} {g : G} {p : Program E R β} {f : β → Program E R α}
    (hp : p.Always fun e => allowed g e ∧ ∀ r : R e, next g ⟨e, r⟩ = g)
    (hf : ∀ b, Follows allowed next g (f b)) : Follows allowed next g (p >>= f) := by
  induction p with
  | ret b => exact hf b
  | call e k ih =>
    refine ⟨hp.1.1, fun r => ?_⟩
    rw [hp.1.2 r]
    exact ih r (hp.2 r)

section FollowsTo

variable (allowed next) in
/-- A program that follows the protocol and returns in a state and with a result that satisfy
`Q`. -/
def FollowsTo (Q : G → α → Prop) : G → Program E R α → Prop
  | g, .ret a => Q g a
  | g, .call e k => allowed g e ∧ ∀ r, FollowsTo Q (next g ⟨e, r⟩) (k r)

variable {β : Type} {Q : G → α → Prop} {Q' : G → β → Prop} {g : G} {p : Program E R α}
  {f : α → Program E R β}

theorem FollowsTo.mono {Q' : G → α → Prop} (hp : FollowsTo allowed next Q g p)
    (h : ∀ g a, Q g a → Q' g a) : FollowsTo allowed next Q' g p := by
  induction p generalizing g with
  | ret a => exact h g a hp
  | call e k ih => exact ⟨hp.1, fun r => ih r (hp.2 r)⟩

theorem followsTo_ite {c : Prop} [Decidable c] {q : Program E R α} :
    FollowsTo allowed next Q g (if c then p else q) ↔
      (c → FollowsTo allowed next Q g p) ∧ (¬c → FollowsTo allowed next Q g q) := by
  by_cases h : c <;> simp [h]

theorem FollowsTo.bind (hp : FollowsTo allowed next Q g p)
    (hf : ∀ g a, Q g a → FollowsTo allowed next Q' g (f a)) :
    FollowsTo allowed next Q' g (p >>= f) := by
  induction p generalizing g with
  | ret a => exact hf g a hp
  | call e k ih => exact ⟨hp.1, fun r => ih r (hp.2 r)⟩

theorem FollowsTo.follows (hp : FollowsTo allowed next Q g p)
    (hf : ∀ g a, Q g a → Follows allowed next g (f a)) : Follows allowed next g (p >>= f) := by
  induction p generalizing g with
  | ret a => exact hf g a hp
  | call e k ih => exact ⟨hp.1, fun r => ih r (hp.2 r)⟩

theorem FollowsTo.toFollows (hp : FollowsTo allowed next Q g p) : Follows allowed next g p := by
  induction p generalizing g with
  | ret a => trivial
  | call e k ih => exact ⟨hp.1, fun r => ih r (hp.2 r)⟩

theorem FollowsTo.of_always {I : G → Prop} (hg : I g)
    (hp : p.Always fun e => ∀ g, I g → allowed g e ∧ ∀ r : R e, I (next g ⟨e, r⟩)) :
    FollowsTo allowed next (fun g _ => I g) g p := by
  induction p generalizing g with
  | ret a => exact hg
  | call e k ih =>
    obtain ⟨hallowed, hkeeps⟩ := hp.1 g hg
    exact ⟨hallowed, fun r => ih r (hkeeps r) (hp.2 r)⟩

theorem FollowsTo.and_returns {P : α → Prop} (hp : FollowsTo allowed next Q g p)
    (hr : p.Returns P) : FollowsTo allowed next (fun g a => Q g a ∧ P a) g p := by
  induction p generalizing g with
  | ret a => exact ⟨hp, hr⟩
  | call e k ih => exact ⟨hp.1, fun r => ih r (hp.2 r) (hr r)⟩

theorem FollowsTo.forEach {I : G → Prop} {body : β → Program E R Unit} {xs : List β} (hg : I g)
    (hbody : ∀ x ∈ xs, ∀ g, I g → FollowsTo allowed next (fun g _ => I g) g (body x)) :
    FollowsTo allowed next (fun g _ => I g) g (Program.forEach body xs) := by
  induction xs generalizing g with
  | nil => exact hg
  | cons x xs ih =>
    rw [forEach_cons]
    exact FollowsTo.bind (hbody x (by simp) g hg) fun g _ hg =>
      ih hg fun y hy => hbody y (by simp [hy])

theorem FollowsTo.foldEach {I : G → α → Prop} {body : α → β → Program E R α} {xs : List β} {a : α}
    (hg : I g a) (hbody : ∀ x ∈ xs, ∀ g a, I g a → FollowsTo allowed next I g (body a x)) :
    FollowsTo allowed next I g (Program.foldEach body a xs) := by
  induction xs generalizing g a with
  | nil => exact hg
  | cons x xs ih =>
    rw [foldEach_cons]
    exact FollowsTo.bind (hbody x (by simp) g a hg) fun g a hg =>
      ih hg fun y hy => hbody y (by simp [hy])

end FollowsTo

end Follows

/-- One operation of a run: the thread that performed it, with the reply and the store before. -/
structure Step (ι : Type) (E : Type) (R : E → Type) (S : Type) where
  who : ι
  event : Event E R
  before : S

variable [DecidableEq ι]

/-- `Interleaved h init s₀ hist threads s`: started as `init` on the store `s₀`, the threads
performed the operations of `hist`, newest first, and are now `threads` on the store `s`.  The
operations of thread `i` are answered by `h i`. -/
inductive Interleaved (h : ι → (e : E) → S → R e × S) (init : ι → Program E R α) (s₀ : S) :
    List (Step ι E R S) → (ι → Program E R α) → S → Prop
  | start : Interleaved h init s₀ [] init s₀
  | step {hist : List (Step ι E R S)} {threads : ι → Program E R α} {s : S}
      (run : Interleaved h init s₀ hist threads s) {i : ι} {e : E} {k : R e → Program E R α}
      (hi : threads i = .call e k) :
      Interleaved h init s₀ (⟨i, ⟨e, (h i e s).1⟩, s⟩ :: hist)
        (Function.update threads i (k (h i e s).1)) (h i e s).2

/-- The operations that a thread has performed in a history, oldest first. -/
def performedBy (i : ι) : List (Step ι E R S) → List (Event E R)
  | [] => []
  | st :: hist => performedBy i hist ++ if st.who = i then [st.event] else []

/-- The protocol state of a thread after a history. -/
def protocolState (next : ι → G → Event E R → G) (g₀ : ι → G) : List (Step ι E R S) → ι → G
  | [], i => g₀ i
  | st :: hist, i =>
    let g := protocolState next g₀ hist i
    if st.who = i then next i g st.event else g

section Run

variable {h : ι → (e : E) → S → R e × S} {init : ι → Program E R α} {s₀ s : S}
  {hist : List (Step ι E R S)} {threads : ι → Program E R α}

theorem Interleaved.reply (run : Interleaved h init s₀ hist threads s) :
    ∀ st ∈ hist, st.event.reply = (h st.who st.event.op st.before).1 := by
  induction run with
  | start => exact List.forall_mem_nil _
  | step _ _ ih => exact List.forall_mem_cons.mpr ⟨rfl, ih⟩

/-- A thread goes on as it would alone with the replies that it has got. -/
theorem Interleaved.performs_init (run : Interleaved h init s₀ hist threads s) {i : ι}
    {t : List (Event E R)} {e : E} (hp : Performs (threads i) t e) :
    Performs (init i) (performedBy i hist ++ t) e := by
  induction run generalizing t with
  | start => exact hp
  | @step hist threads s run j e' k hj ih =>
    rw [performedBy, List.append_assoc]
    by_cases hi : j = i
    · subst hi
      rw [Function.update_self] at hp
      rw [if_pos rfl]
      exact ih (hj ▸ Performs.tail _ hp)
    · rw [if_neg hi]
      rw [Function.update_of_ne (Ne.symm hi)] at hp
      exact ih hp

/-- Each step of a run is one that its thread takes after what it has performed before. -/
theorem Interleaved.performs (run : Interleaved h init s₀ hist threads s) {st : Step ι E R S}
    {older : List (Step ι E R S)} (hst : st :: older <:+ hist) :
    Performs (init st.who) (performedBy st.who older) st.event.op := by
  induction run with
  | start => exact absurd (List.suffix_nil.mp hst) (List.cons_ne_nil _ _)
  | @step hist threads s run i e k hi ih =>
    rcases List.suffix_cons_iff.mp hst with heq | hst
    · obtain ⟨rfl, rfl⟩ := List.cons.inj heq
      have hhead : Performs (threads i) [] e := hi ▸ Performs.head e k
      simpa using run.performs_init hhead
    · exact ih hst

/-- Threads that follow their protocols do so to the end of every run. -/
theorem Interleaved.follows {allowed : ι → G → E → Prop} {next : ι → G → Event E R → G}
    {g₀ : ι → G} (run : Interleaved h init s₀ hist threads s)
    (hinit : ∀ i, Follows (allowed i) (next i) (g₀ i) (init i)) (i : ι) :
    Follows (allowed i) (next i) (protocolState next g₀ hist i) (threads i) := by
  induction run with
  | start => exact hinit i
  | @step hist threads s run j e k hj ih =>
    rw [protocolState]
    by_cases hi : j = i
    · subst hi
      rw [hj] at ih
      simpa using ih.2 _
    · rw [if_neg hi, Function.update_of_ne (Ne.symm hi)]
      exact ih

/-- A thread that has ended has done so as its protocol says. -/
theorem Interleaved.followsTo {allowed : ι → G → E → Prop} {next : ι → G → Event E R → G}
    {Q : ι → G → α → Prop} {g₀ : ι → G} (run : Interleaved h init s₀ hist threads s)
    (hinit : ∀ i, FollowsTo (allowed i) (next i) (Q i) (g₀ i) (init i)) (i : ι) :
    FollowsTo (allowed i) (next i) (Q i) (protocolState next g₀ hist i) (threads i) := by
  induction run with
  | start => exact hinit i
  | @step hist threads s run j e k hj ih =>
    rw [protocolState]
    by_cases hi : j = i
    · subst hi
      rw [hj] at ih
      simpa using ih.2 _
    · rw [if_neg hi, Function.update_of_ne (Ne.symm hi)]
      exact ih

/-- The history and the threads that a list of turns, newest first, leads to.  A thread that has
ended lets its turn pass. -/
def play (h : ι → (e : E) → S → R e × S) (init : ι → Program E R α) (s₀ : S) :
    List ι → List (Step ι E R S) × (ι → Program E R α) × S
  | [] => ([], init, s₀)
  | i :: turns =>
    let (hist, threads, s) := play h init s₀ turns
    match threads i with
    | .ret _ => (hist, threads, s)
    | .call e k =>
      (⟨i, ⟨e, (h i e s).1⟩, s⟩ :: hist, Function.update threads i (k (h i e s).1), (h i e s).2)

theorem interleaved_play (h : ι → (e : E) → S → R e × S) (init : ι → Program E R α) (s₀ : S)
    (turns : List ι) : Interleaved h init s₀ (play h init s₀ turns).1 (play h init s₀ turns).2.1
      (play h init s₀ turns).2.2 := by
  induction turns with
  | nil => exact .start
  | cons i turns ih =>
    rw [play]
    generalize play h init s₀ turns = reached at ih ⊢
    obtain ⟨hist, threads, s⟩ := reached
    cases hi : threads i with
    | ret a => simpa only [hi] using ih
    | call e k => simpa only [hi] using ih.step hi

theorem play_cons {turns : List ι} {i : ι} {e : E}
    (he : ((play h init s₀ turns).2.1 i).nextOp = some e) :
    (play h init s₀ (i :: turns)).1 =
      ⟨i, ⟨e, (h i e (play h init s₀ turns).2.2).1⟩, (play h init s₀ turns).2.2⟩ ::
        (play h init s₀ turns).1 := by
  rw [play]
  generalize play h init s₀ turns = reached at he ⊢
  obtain ⟨hist, threads, s⟩ := reached
  cases hi : threads i with
  | ret a => simp [hi, nextOp] at he
  | call e' k =>
    obtain rfl : e' = e := by simpa [hi, nextOp] using he
    simp only [hi]

end Run

end Program
