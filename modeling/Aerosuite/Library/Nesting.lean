import Mathlib.Data.List.Basic

/-! Runs that each begin and end once in a history, whose newest mark comes first.  The run that was
the last to begin was the last to end, unless it lies within another run. -/

namespace Nesting

inductive Mark (ι : Type) where
  | begins (i : ι)
  | ends (i : ι)

variable {ι : Type}

namespace Mark

def run : Mark ι → ι
  | .begins i | .ends i => i

def begins? : Mark ι → Option ι
  | .begins i => some i
  | .ends _ => none

def ends? : Mark ι → Option ι
  | .begins _ => none
  | .ends i => some i

end Mark

theorem sublist_of_not_mem {α : Type} {a : α} {l u v : List α} (h : (a :: l).Sublist (u ++ v))
    (ha : a ∉ u) : (a :: l).Sublist v := by
  obtain ⟨l₁, l₂, heq, h₁, h₂⟩ := List.sublist_append_iff.mp h
  cases l₁ with
  | nil => exact heq ▸ h₂
  | cons b l₁ =>
    obtain ⟨rfl, -⟩ := List.cons.inj heq
    exact absurd (h₁.subset List.mem_cons_self) ha

variable [DecidableEq ι] {hist : List (Mark ι)} {i j : ι}

/-- Each run of the history has begun and then ended. -/
def Complete (hist : List (Mark ι)) : Prop :=
  ∀ i, hist.filter (·.run = i) = [] ∨ hist.filter (·.run = i) = [.ends i, .begins i]

namespace Complete

theorem sublist (h : Complete hist) {m : Mark ι} (hm : m ∈ hist) :
    [.ends m.run, .begins m.run].Sublist hist := by
  have hne : hist.filter (·.run = m.run) ≠ [] :=
    List.ne_nil_of_mem (List.mem_filter.mpr ⟨hm, by simp⟩)
  exact (h m.run).resolve_left hne ▸ List.filter_sublist

theorem begins_once (h : Complete hist) : ¬ [.begins i, .begins i].Sublist hist := fun hsub => by
  have hfilter : [.begins i, .begins i].Sublist (hist.filter (·.run = i)) := by
    simpa [Mark.run] using hsub.filter (·.run = i)
  rcases h i with hi | hi
  · simp [hi] at hfilter
  · rw [hi] at hfilter
    simpa using hfilter.eq_of_length rfl

/-- There is a last mark of each kind. -/
theorem exists_last (h : Complete hist) (hne : hist ≠ []) :
    (∃ i, hist.findSome? Mark.ends? = some i) ∧ ∃ j, hist.findSome? Mark.begins? = some j := by
  obtain ⟨m, hm⟩ := List.exists_mem_of_ne_nil hist hne
  have hends : .ends m.run ∈ hist := (h.sublist hm).subset (by simp)
  have hbegins : .begins m.run ∈ hist := (h.sublist hm).subset (by simp)
  refine ⟨Option.isSome_iff_exists.mp ?_, Option.isSome_iff_exists.mp ?_⟩
  · exact List.findSome?_isSome_iff.mpr ⟨_, hends, rfl⟩
  · exact List.findSome?_isSome_iff.mpr ⟨_, hbegins, rfl⟩

/-- The last run to end and the last to begin are one run, or the one that began last lies within
the other. -/
theorem last_or_nested (h : Complete hist) (hne : hist ≠ []) :
    ∃ i j, hist.findSome? Mark.ends? = some i ∧ hist.findSome? Mark.begins? = some j ∧
      (i = j ∨ [.ends i, .ends j, .begins j, .begins i].Sublist hist) := by
  obtain ⟨⟨i, hi⟩, j, hj⟩ := h.exists_last hne
  refine ⟨i, j, hi, hj, or_iff_not_imp_left.mpr fun hij => ?_⟩
  obtain ⟨u, m, v, hu, hm, hunended⟩ := List.findSome?_eq_some_iff.mp hi
  obtain ⟨u', m', v', hu', hm', hunbegun⟩ := List.findSome?_eq_some_iff.mp hj
  obtain rfl : m = .ends i := by cases m <;> simp_all [Mark.ends?]
  obtain rfl : m' = .begins j := by cases m' <;> simp_all [Mark.begins?]
  -- All of run `j` is older than the end of run `i`.
  have hown : [.ends j, .begins j].Sublist hist := h.sublist (m := .begins j) (by simp [hu'])
  have hinner : [.ends i, .ends j, .begins j].Sublist hist := by
    have hnot : .ends j ∉ u ++ [.ends i] := fun hmem => by
      rcases List.mem_append.mp hmem with hmem | hmem
      · cases hunended _ hmem
      · exact hij (by simpa [eq_comm] using hmem)
    have htail : [.ends j, .begins j].Sublist v :=
      sublist_of_not_mem (by simpa [hu] using hown) hnot
    rw [hu]
    exact (htail.cons_cons _).trans (List.sublist_append_right u _)
  -- The beginning of run `i` is older than that of run `j`.
  have houter : .begins i ∈ v' := by
    have hmem : .begins i ∈ hist :=
      (h.sublist (m := .ends i) (by simp [hu])).subset (by simp [Mark.run])
    rw [hu'] at hmem
    rcases List.mem_append.mp hmem with hmem | hmem
    · cases hunbegun _ hmem
    · exact (List.mem_cons.mp hmem).resolve_left (by simpa using hij)
  have hafter : ¬ [.ends j, .begins j].Sublist (.begins j :: v') := fun hsub => by
    have hv' : [.ends j, .begins j].Sublist v' :=
      sublist_of_not_mem (show List.Sublist _ ([.begins j] ++ v') from hsub) (by simp)
    refine h.begins_once (i := j) ?_
    rw [hu']
    refine List.Sublist.trans ?_ (List.sublist_append_right u' _)
    exact (List.singleton_sublist.mpr (hv'.subset (by simp))).cons_cons _
  rw [hu'] at hinner ⊢
  obtain ⟨l₁, l₂, heq, h₁, h₂⟩ := List.sublist_append_iff.mp hinner
  have hends : [.ends i, .ends j].Sublist u' := by
    rcases l₁ with _ | ⟨a, _ | ⟨b, l₁⟩⟩
    · rw [List.nil_append] at heq
      exact absurd ((List.sublist_cons_self _ _).trans (heq ▸ h₂)) hafter
    · obtain ⟨-, rfl⟩ : .ends i = a ∧ [.ends j, .begins j] = l₂ := by simpa using heq
      exact absurd h₂ hafter
    · obtain ⟨rfl, rfl, -⟩ : .ends i = a ∧ .ends j = b ∧ [.begins j] = l₁ ++ l₂ := by
        simpa using heq
      exact (List.prefix_append [Mark.ends i, Mark.ends j] l₁).sublist.trans h₁
  exact hends.append ((List.singleton_sublist.mpr houter).cons_cons _)

end Complete

end Nesting
