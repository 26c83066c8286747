import Aerosuite.Library.Search

/-! Bracket matching for tags.  A tag is a word between the marks `lt` and `gt` that has neither of
them inside, so tags in a list never overlap, and a list is cut at a tag without cutting others.
`Balanced` says that a list closes each tag that it opens and no other. -/

namespace Brackets

variable {α : Type*}

/-- A tag: a word between two marks. -/
structure Tag (lt gt : α) where
  body : List α
  ne : lt ≠ gt
  lt_not_mem : lt ∉ body
  gt_not_mem : gt ∉ body

namespace Tag

variable {lt gt : α}

def word (t : Tag lt gt) : List α := lt :: (t.body ++ [gt])

theorem word_ne_nil (t : Tag lt gt) : t.word ≠ [] := List.cons_ne_nil _ _

theorem lt_not_mem_tail (t : Tag lt gt) : lt ∉ t.body ++ [gt] := by
  simp [t.lt_not_mem, t.ne]

theorem lt_mem_word (t : Tag lt gt) : lt ∈ t.word := List.mem_cons_self

/-- A tag at the beginning of a list ends before the next tag of the list begins. -/
theorem prefix_word_eq {t t' : Tag lt gt} {q r v : List α} (hq : q ≠ [])
    (h : t.word ++ r = q ++ (t'.word ++ v)) : t.word <+: q := by
  rcases List.append_eq_append_iff.mp h with ⟨q', rfl, -⟩ | ⟨q', hword, htail⟩
  · exact List.prefix_append _ _
  · cases q' with
    | nil =>
      rw [List.append_nil] at hword
      rw [hword]
    | cons x q' =>
      obtain ⟨rfl, -⟩ := List.cons.inj htail
      cases q with
      | nil => exact absurd rfl hq
      | cons y q =>
        have hmem : lt ∈ t.body ++ [gt] := by
          rw [(List.cons.inj hword).2]
          simp
        exact absurd hmem t.lt_not_mem_tail

/-- Two tags at the same place are one. -/
theorem word_inj {t t' : Tag lt gt} {r r' : List α} (h : t.word ++ r = t'.word ++ r') :
    t.word = t'.word ∧ r = r' := by
  have hcut : t.body ++ gt :: r = t'.body ++ gt :: r' := by
    simpa [word] using h
  rcases List.append_eq_append_iff.mp hcut with ⟨q, hbody, hq⟩ | ⟨q, hbody, hq⟩ <;>
    cases q with
    | nil => simp_all [word]
    | cons x q =>
      obtain ⟨rfl, -⟩ := List.cons.inj hq
      have hmem : gt ∈ t.body ∨ gt ∈ t'.body := by simp [hbody]
      exact absurd hmem (not_or.mpr ⟨t.gt_not_mem, t'.gt_not_mem⟩)

/-- Where a list is cut at its first `t` and at some `t'`, the second cut is the same or is made
in the rest of the list. -/
theorem append_word_eq {t t' : Tag lt gt} {u r inner v : List α} (hu : ¬ t'.word <:+: u)
    (h : u ++ (t.word ++ r) = inner ++ (t'.word ++ v)) :
    (t.word = t'.word ∧ inner = u ∧ r = v) ∨
      ∃ inner', inner = u ++ (t.word ++ inner') ∧ r = inner' ++ (t'.word ++ v) := by
  rcases List.append_eq_append_iff.mp h with ⟨q, rfl, hq⟩ | ⟨q, rfl, hq⟩
  · rcases eq_or_ne q [] with rfl | hne
    · obtain ⟨hword, rfl⟩ := word_inj hq
      exact Or.inl ⟨hword, by simp, rfl⟩
    · obtain ⟨inner', rfl⟩ := prefix_word_eq hne hq
      refine Or.inr ⟨inner', rfl, ?_⟩
      rw [List.append_assoc] at hq
      exact List.append_cancel_left hq
  · rcases eq_or_ne q [] with rfl | hne
    · obtain ⟨hword, rfl⟩ := word_inj hq
      exact Or.inl ⟨hword.symm, by simp, rfl⟩
    · have hin := (prefix_word_eq hne hq).isInfix
      exact absurd (List.infix_append_of_infix_right hin) hu

/-- A list is cut at its first `t` in one way. -/
theorem first_unique {t : Tag lt gt} {u u' r r' : List α} (hu : ¬ t.word <:+: u)
    (hu' : ¬ t.word <:+: u') (h : u ++ (t.word ++ r) = u' ++ (t.word ++ r')) :
    u = u' ∧ r = r' := by
  rcases append_word_eq hu h with ⟨-, rfl, rfl⟩ | ⟨inner, rfl, -⟩
  · exact ⟨rfl, rfl⟩
  · exact absurd (List.infix_append' u t.word inner) hu'

theorem find_word [DecidableEq α] {t : Tag lt gt} {u : List α} (hu : ¬ t.word <:+: u)
    (r : List α) : Search.find t.word (u ++ (t.word ++ r)) = some u.length := by
  cases h : Search.find t.word (u ++ (t.word ++ r)) with
  | none => exact absurd (List.infix_append' u t.word r) (Search.find_eq_none.mp h)
  | some n =>
    obtain ⟨u', r', heq, rfl, hu'⟩ := Search.find_eq_some t.word_ne_nil h
    rw [(first_unique hu hu' heq).1]

end Tag

section Whole

variable {lt gt : α}

/-- Every tag that a list begins is finished in it. -/
def Whole (lt gt : α) (s : List α) : Prop := ∀ u v, s = u ++ lt :: v → gt ∈ v

theorem whole_of_not_mem {s : List α} (h : lt ∉ s) : Whole lt gt s := by
  rintro u v rfl
  simp at h

theorem Whole.append {s r : List α} (hs : Whole lt gt s) (hr : Whole lt gt r) :
    Whole lt gt (s ++ r) := by
  intro u v h
  rcases List.append_eq_append_iff.mp h with ⟨q, rfl, hq⟩ | ⟨q, rfl, hq⟩
  · exact hr q v hq
  · cases q with
    | nil => exact hr [] v hq.symm
    | cons x q =>
      obtain ⟨rfl, rfl⟩ := List.cons.inj hq
      exact List.mem_append_left r (hs u q rfl)

theorem Whole.of_cons {x : α} {s : List α} (h : Whole lt gt (x :: s)) : Whole lt gt s :=
  fun u v hs => h (x :: u) v (by rw [hs]; rfl)

theorem Tag.whole (t : Tag lt gt) : Whole lt gt t.word := by
  intro u v h
  cases u with
  | nil =>
    rw [← (List.cons.inj h).2]
    simp
  | cons x u =>
    have hmem : lt ∈ t.body ++ [gt] := by
      rw [(List.cons.inj h).2]
      simp
    exact absurd hmem t.lt_not_mem_tail

theorem Tag.whole_append (t : Tag lt gt) (u : List α) : Whole lt gt (u ++ t.word) := by
  intro u' v h
  rcases List.append_eq_append_iff.mp h with ⟨q, -, hq⟩ | ⟨q, -, hq⟩
  · exact t.whole q v hq
  · cases q with
    | nil => exact t.whole [] v hq.symm
    | cons x q =>
      rw [(List.cons.inj hq).2]
      simp [word]

end Whole

section Occurrences

variable [DecidableEq α]

/-- How often a word begins in a list. -/
def occ (w : List α) : List α → ℕ
  | [] => 0
  | x :: s => (if w <+: x :: s then 1 else 0) + occ w s

theorem occ_eq_zero {w s : List α} (hw : w ≠ []) : occ w s = 0 ↔ ¬ w <:+: s := by
  induction s with
  | nil => simp [occ, hw]
  | cons x s ih =>
    rw [occ, List.infix_cons_iff, not_or, ← ih]
    split <;> simp_all

theorem occ_le_of_prefix {w p s : List α} (h : p <+: s) : occ w p ≤ occ w s := by
  induction s generalizing p with
  | nil =>
    rw [List.prefix_nil.mp h]
  | cons x s ih =>
    rcases List.prefix_cons_iff.mp h with rfl | ⟨q, rfl, hq⟩
    · exact Nat.zero_le _
    · have hrest := ih hq
      have hfirst : w <+: x :: q → w <+: x :: s := fun hw => hw.trans h
      simp only [occ]
      split <;> split <;> first | omega | simp_all

variable {lt gt : α}

/-- A whole list and what follows it share no tag. -/
theorem Tag.occ_append (t : Tag lt gt) {s : List α} (hs : Whole lt gt s) (r : List α) :
    occ t.word (s ++ r) = occ t.word s + occ t.word r := by
  induction s with
  | nil => simp [occ]
  | cons x s ih =>
    have hfirst : t.word <+: x :: (s ++ r) ↔ t.word <+: x :: s := by
      constructor
      · intro hpre
        obtain ⟨rfl, htail⟩ := List.cons_prefix_cons.mp hpre
        have hgt := hs [] s rfl
        refine List.cons_prefix_cons.mpr ⟨rfl, ?_⟩
        rcases List.prefix_or_prefix_of_prefix htail (List.prefix_append s r) with h | ⟨q, hq⟩
        · exact h
        · -- The mark `gt` of `s` is the last one of the tag.
          cases List.eq_nil_or_concat q with
          | inl hnil =>
            rw [hnil, List.append_nil] at hq
            exact hq ▸ List.prefix_rfl
          | inr hsnoc =>
            obtain ⟨q, y, rfl⟩ := hsnoc
            rw [List.concat_eq_append, ← List.append_assoc] at hq
            have hbody := (List.append_inj' hq rfl).1
            exact absurd (hbody ▸ List.mem_append_left q hgt) t.gt_not_mem
      · exact fun hpre => hpre.trans (List.prefix_append (x :: s) r)
    rw [List.cons_append, occ, occ, ih hs.of_cons, Nat.add_assoc]
    simp only [hfirst]

/-- A list and what begins with the mark `lt` share no tag. -/
theorem Tag.occ_append_lt (t : Tag lt gt) (s r : List α) :
    occ t.word (s ++ lt :: r) = occ t.word s + occ t.word (lt :: r) := by
  induction s with
  | nil => simp [occ]
  | cons x s ih =>
    have hfirst : t.word <+: x :: (s ++ lt :: r) ↔ t.word <+: x :: s := by
      constructor
      · intro hpre
        obtain ⟨rfl, htail⟩ := List.cons_prefix_cons.mp hpre
        refine List.cons_prefix_cons.mpr ⟨rfl, ?_⟩
        rcases List.prefix_or_prefix_of_prefix htail (List.prefix_append s _) with h | ⟨q, hq⟩
        · exact h
        · rw [← hq] at htail ⊢
          cases q with
          | nil => simp
          | cons y q =>
            have hlt := (List.prefix_append_right_inj s).mp htail
            obtain ⟨rfl, -⟩ := List.cons_prefix_cons.mp hlt
            have hmem : y ∈ t.body ++ [gt] := by simp [← hq]
            exact absurd hmem t.lt_not_mem_tail
      · exact fun hpre => hpre.trans (List.prefix_append (x :: s) _)
    rw [List.cons_append, occ, occ, ih, Nat.add_assoc]
    simp only [hfirst]

theorem Tag.occ_word (t t' : Tag lt gt) :
    occ t.word t'.word = if t.word = t'.word then 1 else 0 := by
  have htail : occ t.word (t'.body ++ [gt]) = 0 :=
    (occ_eq_zero t.word_ne_nil).mpr fun hin =>
      t'.lt_not_mem_tail (hin.subset t.lt_mem_word)
  have hfirst : t.word <+: t'.word ↔ t.word = t'.word := by
    constructor
    · rintro ⟨r, hr⟩
      have hword : t.word ++ r = t'.word ++ [] := by rw [hr, List.append_nil]
      exact (word_inj hword).1
    · intro h
      rw [h]
  have hocc : occ t.word t'.word =
      (if t.word <+: t'.word then 1 else 0) + occ t.word (t'.body ++ [gt]) := rfl
  rw [hocc, htail, Nat.add_zero]
  simp only [hfirst]

/-- The tags of a list that is cut before and after a tag. -/
theorem Tag.occ_cut (t t' : Tag lt gt) (u r : List α) :
    occ t.word (u ++ (t'.word ++ r)) =
      occ t.word u + (if t.word = t'.word then 1 else 0) + occ t.word r := by
  have hlt : u ++ (t'.word ++ r) = u ++ lt :: (t'.body ++ [gt] ++ r) := rfl
  have hword : lt :: (t'.body ++ [gt] ++ r) = t'.word ++ r := rfl
  rw [hlt, t.occ_append_lt, hword, t.occ_append t'.whole, t.occ_word, Nat.add_assoc]

end Occurrences

section Matching

variable [DecidableEq α]

/-- The tags of a list match: as many are closed as are opened, and none before it is opened. -/
def Balanced (opn close s : List α) : Prop :=
  occ opn s = occ close s ∧ ∀ p, p <+: s → occ close p ≤ occ opn p

/-- The list closes all but one of `depth` open tags, besides those that it opens, and then not
yet the last one. -/
structure Closes (opn close : List α) (depth : ℕ) (s : List α) : Prop where
  total : occ opn s + depth = occ close s + 1
  below : ∀ p, p <+: s → occ close p < occ opn p + depth

theorem closes_one {opn close s : List α} : Closes opn close 1 s ↔ Balanced opn close s := by
  constructor
  · rintro ⟨htotal, hbelow⟩
    exact ⟨by omega, fun p hp => Nat.lt_succ_iff.mp (hbelow p hp)⟩
  · rintro ⟨htotal, hbelow⟩
    exact ⟨by omega, fun p hp => Nat.lt_succ_of_le (hbelow p hp)⟩

variable {lt gt : α} {o c : Tag lt gt} {u : List α} {depth : ℕ}

/-- A list without tags closes nothing. -/
theorem closes_plain (ho : ¬ o.word <:+: u) (hc : ¬ c.word <:+: u) :
    Closes o.word c.word 1 u := by
  have hzero := (occ_eq_zero c.word_ne_nil).mpr hc
  refine ⟨?_, fun p hp => ?_⟩
  · rw [(occ_eq_zero o.word_ne_nil).mpr ho, hzero]
  · have hle := occ_le_of_prefix (w := c.word) hp
    omega

variable (ho : ¬ o.word <:+: u) (hc : ¬ c.word <:+: u)
include ho hc

/-- What is left to close after a tag `t`, the first of the list, when `t` does not close the last
open tag. -/
theorem closes_cut (t : Tag lt gt) {depth' : ℕ} (hlow : (if c.word = t.word then 1 else 0) < depth)
    (hdepth : depth + (if o.word = t.word then 1 else 0) =
      depth' + if c.word = t.word then 1 else 0) (s : List α) :
    Closes o.word c.word depth (u ++ (t.word ++ s)) ↔ Closes o.word c.word depth' s := by
  have hocc : ∀ s, occ o.word (u ++ (t.word ++ s)) =
        (if o.word = t.word then 1 else 0) + occ o.word s ∧
      occ c.word (u ++ (t.word ++ s)) = (if c.word = t.word then 1 else 0) + occ c.word s :=
    fun s => by
      rw [o.occ_cut, c.occ_cut, (occ_eq_zero o.word_ne_nil).mpr ho,
        (occ_eq_zero c.word_ne_nil).mpr hc, Nat.zero_add, Nat.zero_add]
      exact ⟨rfl, rfl⟩
  constructor
  · rintro ⟨htotal, hbelow⟩
    rw [(hocc s).1, (hocc s).2] at htotal
    refine ⟨by omega, fun p hp => ?_⟩
    have hpre := hbelow (u ++ (t.word ++ p))
      ((List.prefix_append_right_inj u).mpr ((List.prefix_append_right_inj t.word).mpr hp))
    rw [(hocc p).1, (hocc p).2] at hpre
    omega
  · rintro ⟨htotal, hbelow⟩
    refine ⟨by rw [(hocc s).1, (hocc s).2]; omega, fun p hp => ?_⟩
    rw [← List.append_assoc] at hp
    rcases List.prefix_or_prefix_of_prefix hp (List.prefix_append _ s) with hshort | ⟨q, rfl⟩
    · -- A prefix that ends before `s` begins closes `t` at most.
      have hle := occ_le_of_prefix (w := c.word) hshort
      have hnil := (hocc []).2
      rw [List.append_nil] at hnil
      rw [hnil] at hle
      show occ c.word p < occ o.word p + depth
      simp only [occ] at hle
      omega
    · have hq := (List.prefix_append_right_inj _).mp hp
      have hlt := hbelow q hq
      rw [List.append_assoc, (hocc q).1, (hocc q).2]
      omega

variable (hoc : o.word ≠ c.word)
include hoc

theorem closes_open (hdepth : 1 ≤ depth) (s : List α) :
    Closes o.word c.word depth (u ++ (o.word ++ s)) ↔ Closes o.word c.word (depth + 1) s := by
  apply closes_cut ho hc o
  · rw [if_neg hoc.symm]
    omega
  · rw [if_neg hoc.symm, if_pos rfl]

theorem closes_close (hdepth : 1 ≤ depth) (s : List α) :
    Closes o.word c.word (depth + 1) (u ++ (c.word ++ s)) ↔ Closes o.word c.word depth s := by
  apply closes_cut ho hc c
  · rw [if_pos rfl]
    omega
  · rw [if_neg hoc, if_pos rfl]

theorem not_closes_close (s : List α) : ¬ Closes o.word c.word 1 (u ++ (c.word ++ s)) := by
  rintro ⟨-, hbelow⟩
  have hpre := hbelow (u ++ (c.word ++ []))
    ((List.prefix_append_right_inj u).mpr ((List.prefix_append_right_inj c.word).mpr
      List.nil_prefix))
  rw [o.occ_cut, c.occ_cut, if_pos rfl, if_neg hoc, (occ_eq_zero o.word_ne_nil).mpr ho,
    (occ_eq_zero c.word_ne_nil).mpr hc] at hpre
  simp [occ] at hpre

omit ho hc hoc in
theorem balanced_of_not_infix (ho : ¬ o.word <:+: u) (hc : ¬ c.word <:+: u) :
    Balanced o.word c.word u := closes_one.mp (closes_plain ho hc)

omit ho hc hoc in
theorem Balanced.append {s r : List α} (hs : Balanced o.word c.word s) (hw : Whole lt gt s)
    (hr : Balanced o.word c.word r) : Balanced o.word c.word (s ++ r) := by
  refine ⟨?_, fun p hp => ?_⟩
  · rw [o.occ_append hw, c.occ_append hw, hs.1, hr.1]
  · rcases List.prefix_or_prefix_of_prefix hp (List.prefix_append s r) with h | ⟨q, rfl⟩
    · exact hs.2 p h
    · have hq := hr.2 q ((List.prefix_append_right_inj s).mp hp)
      have hs := hs.1
      rw [o.occ_append hw, c.occ_append hw]
      omega

omit ho hc in
theorem Balanced.wrap {s : List α} (hs : Balanced o.word c.word s) (hw : Whole lt gt s) :
    Balanced o.word c.word (o.word ++ (s ++ c.word)) := by
  have hnil : ∀ t : Tag lt gt, ¬ t.word <:+: [] := fun t h => t.word_ne_nil (List.infix_nil.mp h)
  refine closes_one.mp ((closes_open (u := []) (hnil o) (hnil c) hoc le_rfl _).mpr ⟨?_, ?_⟩)
  · rw [o.occ_append hw, c.occ_append hw, o.occ_word, c.occ_word, if_neg hoc, if_pos rfl, hs.1]
  · intro p hp
    rcases List.prefix_or_prefix_of_prefix hp (List.prefix_append s _) with h | ⟨q, rfl⟩
    · have hle := hs.2 p h
      omega
    · have hle := occ_le_of_prefix (w := c.word) ((List.prefix_append_right_inj s).mp hp)
      rw [c.occ_word, if_pos rfl] at hle
      have hs := hs.1
      rw [o.occ_append hw, c.occ_append hw]
      omega

end Matching

end Brackets
