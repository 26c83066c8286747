import Aerosuite.Library.Text
import Mathlib.Data.List.Infix

/-! Searching a list for a word: the first position of the word, and the words that a mark splits
a list into. -/

namespace Search

variable {α : Type*} [DecidableEq α]

/-- The position of the first `w` in a list. -/
def find (w : List α) : List α → Option ℕ
  | [] => if w = [] then some 0 else none
  | x :: s => if w <+: x :: s then some 0 else (find w s).map (· + 1)

theorem find_eq_none {w s : List α} : find w s = none ↔ ¬ w <:+: s := by
  induction s with
  | nil => simp [find]
  | cons x s ih =>
    rw [find, List.infix_cons_iff]
    split
    · next h => simp [h]
    · next h => simp [h, ih]

/-- The position that `find` gives: `w` stands there, and the list before it has no `w`. -/
theorem find_eq_some {w s : List α} {n : ℕ} (hw : w ≠ []) (h : find w s = some n) :
    ∃ u v, s = u ++ (w ++ v) ∧ u.length = n ∧ ¬ w <:+: u := by
  induction s generalizing n with
  | nil => simp [find, hw] at h
  | cons x s ih =>
    rw [find] at h
    split at h
    · next hpre =>
      obtain ⟨v, hv⟩ := hpre
      obtain rfl := Option.some.inj h
      exact ⟨[], v, hv.symm, rfl, by simpa using hw⟩
    · next hpre =>
      obtain ⟨m, hm, rfl⟩ := Option.map_eq_some_iff.mp h
      obtain ⟨u, v, rfl, rfl, hu⟩ := ih hm
      refine ⟨x :: u, v, rfl, rfl, fun hin => ?_⟩
      rcases List.infix_cons_iff.mp hin with hin | hin
      · exact hpre (hin.trans (List.prefix_append (x :: u) (w ++ v)))
      · exact hu hin

omit [DecidableEq α] in
/-- A word without the mark `x` lies on one side of each `x`. -/
theorem infix_append_cons {w u v : List α} {x : α} (hx : x ∉ w) :
    w <:+: u ++ x :: v ↔ w <:+: u ∨ w <:+: v := by
  constructor
  · intro h
    rcases List.infix_append_iff_ne_nil.mp h with h | h | ⟨l, r, -, hr, rfl, -, hpre⟩
    · exact Or.inl h
    · rcases List.infix_cons_iff.mp h with hpre | hin
      · rcases List.prefix_cons_iff.mp hpre with rfl | ⟨t, rfl, -⟩
        · exact Or.inr List.nil_infix
        · exact absurd List.mem_cons_self hx
      · exact Or.inr hin
    · rcases List.prefix_cons_iff.mp hpre with rfl | ⟨t, rfl, -⟩
      · exact absurd rfl hr
      · exact absurd (List.mem_append_right l List.mem_cons_self) hx
  · rintro (h | h)
    · exact List.infix_append_of_infix_left h
    · exact List.infix_append_of_infix_right (List.infix_cons h)

omit [DecidableEq α] in
/-- A word that shares no mark with `m` lies on one side of `m`. -/
theorem infix_append_marks {w u m v : List α} (hm : m ≠ []) (h : ∀ x ∈ m, x ∉ w) :
    w <:+: u ++ (m ++ v) ↔ w <:+: u ∨ w <:+: v := by
  induction m generalizing u with
  | nil => exact absurd rfl hm
  | cons x m ih =>
    rw [List.cons_append, infix_append_cons (h x List.mem_cons_self)]
    refine or_congr_right ?_
    rcases eq_or_ne m [] with rfl | hne
    · rfl
    · have hrest := ih (u := []) hne fun y hy => h y (List.mem_cons_of_mem x hy)
      rw [List.nil_append] at hrest
      rw [hrest]
      refine or_iff_right_of_imp fun hnil => ?_
      rw [List.infix_nil.mp hnil]
      exact List.nil_infix

omit [DecidableEq α] in
theorem infix_flatMap_append {β : Type*} {f : β → List α} {P : β → Prop} {w v : List α}
    (h : ∀ x v, w <:+: f x ++ v ↔ P x ∨ w <:+: v) (l : List β) :
    w <:+: l.flatMap f ++ v ↔ (∃ x ∈ l, P x) ∨ w <:+: v := by
  induction l with
  | nil => simp
  | cons x l ih =>
    rw [List.flatMap_cons, List.append_assoc, h, ih]
    simp [or_assoc]

end Search

/-- `Text.contains` is the relation of being an infix. -/
theorem Text.contains_iff {s pat : List Char} : contains s pat = true ↔ pat <:+: s := by
  simp only [contains, List.any_eq_true, List.mem_tails, List.isPrefixOf_iff_prefix]
  rw [List.infix_iff_prefix_suffix]
  exact exists_congr fun t => And.comm
