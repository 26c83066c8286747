import Mathlib.Data.List.Basic

/-! Histories, newest entry first: the latest entry of a kind, entries of a kind that a stamp keeps
apart, and a counter of the newest entries in a row. -/

namespace History

variable {E : Type} {P : E → Prop} {Q : E → E → Prop} {newer h : List E} {e x : E}

/-- `e` is the latest entry of `h` with `P`, and `newer` the entries after it. -/
def Latest (P : E → Prop) (newer : List E) (e : E) (h : List E) : Prop :=
  P e ∧ (∀ f ∈ newer, ¬ P f) ∧ ∃ older, h = newer ++ e :: older

theorem Latest.head (hx : P x) (h : List E) : Latest P [] x (x :: h) :=
  ⟨hx, by simp, h, rfl⟩

theorem Latest.cons (hl : Latest P newer e h) (hx : ¬ P x) : Latest P (x :: newer) e (x :: h) := by
  obtain ⟨he, hnewer, older, rfl⟩ := hl
  refine ⟨he, fun f hf => ?_, older, rfl⟩
  rcases List.mem_cons.mp hf with rfl | hf
  · exact hx
  · exact hnewer f hf

theorem Latest.of_cons (hl : Latest P newer e (x :: h)) :
    (newer = [] ∧ e = x) ∨ ∃ newer', newer = x :: newer' ∧ ¬ P x ∧ Latest P newer' e h := by
  obtain ⟨he, hnewer, older, heq⟩ := hl
  cases newer with
  | nil => exact .inl ⟨rfl, (List.cons.inj heq).1.symm⟩
  | cons y newer =>
    obtain ⟨rfl, rfl⟩ := List.cons.inj heq
    exact .inr ⟨newer, rfl, hnewer x (by simp), he, fun f hf => hnewer f (by simp [hf]), older, rfl⟩

theorem Latest.of_cons_of_not (hl : Latest P newer e (x :: h)) (hx : ¬ P x) :
    ∃ newer', newer = x :: newer' ∧ Latest P newer' e h := by
  rcases hl.of_cons with ⟨-, rfl⟩ | ⟨newer', rfl, -, hl⟩
  · exact absurd hl.1 hx
  · exact ⟨newer', rfl, hl⟩

theorem Latest.unique {newer' : List E} {e' : E} (hl : Latest P newer e h)
    (hl' : Latest P newer' e' h) : e = e' := by
  induction h generalizing newer newer' with
  | nil =>
    obtain ⟨-, -, older, heq⟩ := hl
    simp at heq
  | cons x h ih =>
    by_cases hx : P x
    · rcases hl.of_cons with ⟨-, rfl⟩ | ⟨_, -, hn, -⟩
      · rcases hl'.of_cons with ⟨-, rfl⟩ | ⟨_, -, hn, -⟩
        · rfl
        · exact absurd hx hn
      · exact absurd hx hn
    · obtain ⟨_, -, hl⟩ := hl.of_cons_of_not hx
      obtain ⟨_, -, hl'⟩ := hl'.of_cons_of_not hx
      exact ih hl hl'

/-- A property of every entry with those before it, when one entry is added. -/
theorem forall_suffix_cons {R : E → List E → Prop} :
    (∀ e older, e :: older <:+ x :: h → R e older) ↔
      R x h ∧ ∀ e older, e :: older <:+ h → R e older := by
  constructor
  · intro hall
    exact ⟨hall x h (List.suffix_refl _),
      fun e older hsuffix => hall e older (hsuffix.trans (List.suffix_cons x h))⟩
  · rintro ⟨hx, hall⟩ e older hsuffix
    rcases List.suffix_cons_iff.mp hsuffix with heq | hsuffix
    · obtain ⟨rfl, rfl⟩ := List.cons.inj heq
      exact hx
    · exact hall e older hsuffix

section Spacing

variable {check finish : E → ℕ} {gap : ℕ} {last : Option ℕ}

/-- The stamp is not before the end of any entry of the kind. -/
def Covers (P : E → Prop) (finish : E → ℕ) (h : List E) (last : Option ℕ) : Prop :=
  ∀ e ∈ h, P e → ∃ t, last = some t ∧ finish e ≤ t

/-- From the end of an entry of the kind to the check of a later one there is a gap. -/
def Spaced (P : E → Prop) (check finish : E → ℕ) (gap : ℕ) (h : List E) : Prop :=
  h.Pairwise fun later earlier => P later → P earlier → finish earlier + gap ≤ check later

theorem Covers.cons (hc : Covers P finish h last) (hx : ¬ P x) : Covers P finish (x :: h) last := by
  intro e he hP
  rcases List.mem_cons.mp he with rfl | he
  · exact absurd hP hx
  · exact hc e he hP

theorem covers_stamp (hle : ∀ e ∈ h, finish e ≤ finish x) :
    Covers P finish (x :: h) (some (finish x)) := by
  intro e he _
  rcases List.mem_cons.mp he with rfl | he
  · exact ⟨_, rfl, Nat.le_refl _⟩
  · exact ⟨_, rfl, hle e he⟩

/-- An entry of the kind that waits for the gap after the stamp keeps the entries apart. -/
theorem Spaced.cons (hs : Spaced P check finish gap h) (hc : Covers P finish h last)
    (hle : ∀ e ∈ h, finish e ≤ check x) (hgap : P x → ∀ t, last = some t → gap ≤ check x - t) :
    Spaced P check finish gap (x :: h) := by
  refine List.Pairwise.cons (fun e he hx hP => ?_) hs
  obtain ⟨t, hlast, ht⟩ := hc e he hP
  have := hgap hx t hlast
  have := hle e he
  omega

/-- A stamp that is set when an entry of the kind is made, and only after the gap, keeps the entries
apart. -/
theorem Spaced.step {last' : Option ℕ} (hc : Covers P finish h last)
    (hs : Spaced P check finish gap h)
    (hle : ∀ e ∈ h, finish e ≤ check x) (htime : check x ≤ finish x)
    (hx : ¬ P x ∧ last' = last ∨
      last' = some (finish x) ∧ ∀ t, last = some t → gap ≤ check x - t) :
    Covers P finish (x :: h) last' ∧ Spaced P check finish gap (x :: h) := by
  rcases hx with ⟨hnot, rfl⟩ | ⟨rfl, hgap⟩
  · exact ⟨hc.cons hnot, hs.cons hc hle fun hP => absurd hP hnot⟩
  · exact ⟨covers_stamp fun e he => Nat.le_trans (hle e he) htime, hs.cons hc hle fun _ => hgap⟩

theorem spaced_of_not (hnot : ∀ e ∈ h, ¬ P e) : Spaced P check finish gap h :=
  List.pairwise_of_forall_mem_list fun e he _ _ hP => absurd hP (hnot e he)

end Spacing

section Streak

variable {p : E → Bool} {cap count count' n : ℕ}

/-- The number of newest entries in a row with `p`. -/
def streak (p : E → Bool) (h : List E) : ℕ := (h.takeWhile p).length

@[simp] theorem streak_nil : streak p [] = 0 := rfl

theorem streak_cons : streak p (x :: h) = if p x then streak p h + 1 else 0 := by
  rw [streak, List.takeWhile_cons]
  split <;> rfl

/-- Up to `cap`, a counter stands for newest entries in a row. -/
def Vouched (cap count : ℕ) (p : E → Bool) (h : List E) : Prop := min count cap ≤ streak p h

theorem vouched_zero : Vouched cap 0 p h := by
  unfold Vouched
  omega

theorem vouched_of_le (hcap : cap ≤ streak p h) : Vouched cap count p h := by
  unfold Vouched
  omega

theorem Vouched.mono (hv : Vouched cap count p h) (hle : count' ≤ count) :
    Vouched cap count' p h := by
  unfold Vouched at *
  omega

theorem Vouched.cons (hv : Vouched cap count p h) (hx : p x = true) (hle : count' ≤ count + 1) :
    Vouched cap count' p (x :: h) := by
  unfold Vouched at *
  rw [streak_cons, if_pos hx]
  omega

/-- A counter that reaches `n` with an entry of the kind stands for `n` entries in a row. -/
theorem Vouched.window (hv : Vouched (n - 1) count p h) (hx : p x = true) (hle : n ≤ count + 1) :
    n ≤ streak p (x :: h) := by
  unfold Vouched at hv
  rw [streak_cons, if_pos hx]
  omega

end Streak

section Credit

variable {ι : Type} {who : E → ι} {gives : E → List E → Prop} {takes : E → Prop}
  {charged : List E → ι → Prop}

/-- No two entries of the history are of the kind. -/
def AtMostOne (P : E → Prop) (h : List E) : Prop :=
  h.Pairwise fun later earlier => P later → ¬P earlier

/-- No two entries of the history are of the kind, where the kind of an entry depends on those
before it. -/
def Once (P : E → List E → Prop) (h : List E) : Prop :=
  ∀ e older, e :: older <:+ h → P e older → ∀ e' older', e' :: older' <:+ older → ¬P e' older'

/-- An entry of the history gives credit. -/
def Given (gives : E → List E → Prop) (h : List E) : Prop :=
  ∃ e older, e :: older <:+ h ∧ gives e older

theorem Given.cons (hg : Given gives h) : Given gives (x :: h) := by
  obtain ⟨e, older, hsuffix, hgives⟩ := hg
  exact ⟨e, older, hsuffix.trans (List.suffix_cons x h), hgives⟩

theorem given_cons (hx : gives x h) : Given gives (x :: h) := ⟨x, h, List.suffix_refl _, hx⟩

theorem Once.tail (ho : Once gives (x :: h)) : Once gives h :=
  fun e older hsuffix => ho e older (hsuffix.trans (List.suffix_cons x h))

theorem Once.not_given (ho : Once gives (x :: h)) (hx : gives x h) : ¬Given gives h := by
  rintro ⟨e, older, hsuffix, hgives⟩
  exact ho x h (List.suffix_refl _) hx e older hsuffix hgives

/-- Credit that is given at most once is held by one party at most, until it is taken. -/
structure Balanced (gives : E → List E → Prop) (takes : E → Prop) (charged : List E → ι → Prop)
    (h : List E) : Prop where
  held : ∀ i, charged h i → Given gives h ∧ (∀ e ∈ h, ¬takes e) ∧ ∀ j, charged h j → j = i
  taken : ∀ e ∈ h, takes e → Given gives h
  atMostOne : AtMostOne takes h

theorem balanced_nil (hnil : ∀ i, ¬charged [] i) : Balanced gives takes charged [] where
  held i hi := absurd hi (hnil i)
  taken e he := by cases he
  atMostOne := .nil

/-- A party is charged by an entry of its own that gives credit, until one takes it. -/
theorem Balanced.cons (who : E → ι) (hb : Balanced gives takes charged h) (ho : Once gives (x :: h))
    (hnext : ∀ i, charged (x :: h) i →
      i = who x ∧ gives x h ∨ charged h i ∧ ¬(i = who x ∧ takes x))
    (htakes : takes x → charged h (who x)) : Balanced gives takes charged (x :: h) := by
  by_cases hx : takes x
  · obtain ⟨hgiven, hnone, hone⟩ := hb.held _ (htakes hx)
    refine ⟨fun i hi => ?_, fun _ _ _ => hgiven.cons,
      List.Pairwise.cons (fun e he _ => hnone e he) hb.atMostOne⟩
    rcases hnext i hi with ⟨-, hgives⟩ | ⟨hi, hnot⟩
    · exact absurd hgiven (ho.not_given hgives)
    · exact absurd ⟨hone i hi, hx⟩ hnot
  · refine ⟨fun i hi => ?_, fun e he htake => ?_,
      List.Pairwise.cons (fun e _ htake => absurd htake hx) hb.atMostOne⟩
    · have hnone : (∀ e ∈ h, ¬takes e) → ∀ e ∈ x :: h, ¬takes e :=
        fun hnone => List.forall_mem_cons.mpr ⟨hx, hnone⟩
      by_cases hgives : gives x h
      · -- Before the entry nobody held credit.
        have hfirst : ∀ j, charged (x :: h) j → j = who x := fun j hj =>
          (hnext j hj).elim And.left fun hold =>
            absurd (hb.held j hold.1).1 (ho.not_given hgives)
        exact ⟨given_cons hgives,
          hnone fun e he htake => ho.not_given hgives (hb.taken e he htake),
          fun j hj => (hfirst j hj).trans (hfirst i hi).symm⟩
      · have hold : ∀ j, charged (x :: h) j → charged h j := fun j hj =>
          (hnext j hj).elim (fun hnew => absurd hnew.2 hgives) And.left
        obtain ⟨hgiven, htaken, hone⟩ := hb.held i (hold i hi)
        exact ⟨hgiven.cons, hnone htaken, fun j hj => hone j (hold j hj)⟩
    · rcases List.mem_cons.mp he with rfl | he
      · exact absurd htake hx
      · exact (hb.taken e he htake).cons

/-- What at most one entry of a coarser kind gives is given once. -/
theorem AtMostOne.once {P : E → Prop} (hp : AtMostOne P h)
    (hgives : ∀ e older, e :: older <:+ h → gives e older → P e) : Once gives h := by
  intro e older hsuffix he e' older' hsuffix' he'
  have hpair : AtMostOne P (e :: older) := hp.sublist hsuffix.sublist
  have hmem : e' ∈ older := hsuffix'.subset List.mem_cons_self
  refine (List.pairwise_cons.mp hpair).1 e' hmem (hgives e older hsuffix he) ?_
  exact hgives e' older' (hsuffix'.trans ((List.suffix_cons e older).trans hsuffix)) he'

end Credit

section Recent

/-- The `n` newest entries, the oldest of them first. -/
def recent (n : ℕ) (h : List E) : List E := (h.take n).reverse

/-- The newest entries are kept by a queue that drops its oldest entry when it has more than `n`. -/
theorem recent_cons (n : ℕ) (x : E) (h : List E) :
    recent n (x :: h) =
      if n < (recent n h ++ [x]).length then (recent n h ++ [x]).tail else recent n h ++ [x] := by
  have hlength : (recent n h ++ [x]).length = min n h.length + 1 := by simp [recent]
  rw [hlength]
  by_cases hlt : h.length < n
  · obtain ⟨m, rfl⟩ : ∃ m, n = m + 1 := ⟨n - 1, by omega⟩
    rw [if_neg (by omega), recent, recent, List.take_succ_cons, List.reverse_cons,
      List.take_of_length_le (show h.length ≤ m by omega), List.take_of_length_le (by omega)]
  · rw [if_pos (by omega)]
    cases n with
    | zero => simp [recent]
    | succ m =>
      have hne : recent (m + 1) h ≠ [] := by
        apply List.ne_nil_of_length_pos
        simp only [recent, List.length_reverse, List.length_take]
        omega
      rw [List.tail_append_of_ne_nil hne, recent, recent, List.take_succ_cons, List.reverse_cons,
        List.tail_reverse, List.dropLast_eq_take, List.length_take, List.take_take,
        show min (min (m + 1) h.length - 1) (m + 1) = m by omega]

theorem length_recent_le (n : ℕ) (h : List E) : (recent n h).length ≤ n := by
  rw [recent, List.length_reverse]
  exact List.length_take_le n h

theorem recent_sublist (n : ℕ) (h : List E) : (recent n h).Sublist h.reverse :=
  (List.take_sublist n h).reverse

end Recent

end History
