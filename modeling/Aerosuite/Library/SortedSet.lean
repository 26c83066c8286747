import Mathlib.Data.List.Sort
import Mathlib.Data.Prod.Lex
import Mathlib.Data.List.Nodup

/-! Sorted sets: finite maps from members to scores whose entries are kept in the order of their
scores, ties broken by the order of the members.  A set is determined by its scores
(`SortedSet.ext_score`), so that a client reasons about `score` alone. -/

/-- A finite map from members `μ` to scores `σ`, as its entries in ascending order. -/
structure SortedSet (μ σ : Type) [LinearOrder μ] [LinearOrder σ] where
  entries : List (σ ×ₗ μ)
  sorted : entries.Pairwise (· ≤ ·)
  nodup : (entries.map fun e => (ofLex e).2).Nodup

namespace SortedSet

variable {μ σ : Type} [LinearOrder μ] [LinearOrder σ]

theorem ext_entries {s t : SortedSet μ σ} (h : s.entries = t.entries) : s = t := by
  cases s; cases t; cases h; rfl

instance : EmptyCollection (SortedSet μ σ) := ⟨⟨[], List.Pairwise.nil, List.nodup_nil⟩⟩

/-- The score of a member, if it is in the set. -/
def score (s : SortedSet μ σ) (m : μ) : Option σ :=
  (s.entries.find? fun e => (ofLex e).2 = m).map fun e => (ofLex e).1

/-- The members of the set with their scores, in ascending order. -/
def toList (s : SortedSet μ σ) : List (μ × σ) :=
  s.entries.map fun e => ((ofLex e).2, (ofLex e).1)

/-- The set without `m`. -/
def remove (s : SortedSet μ σ) (m : μ) : SortedSet μ σ where
  entries := s.entries.filter fun e => (ofLex e).2 ≠ m
  sorted := s.sorted.filter _
  nodup := s.nodup.sublist (List.filter_sublist.map _)

/-- The set with `m` at score `x`, whether or not it was there. -/
def add (s : SortedSet μ σ) (m : μ) (x : σ) : SortedSet μ σ where
  entries := (s.remove m).entries.orderedInsert (· ≤ ·) (toLex (x, m))
  sorted := List.Pairwise.orderedInsert _ _ (s.remove m).sorted
  nodup := by
    have hperm := List.perm_orderedInsert (· ≤ ·) (toLex (x, m)) (s.remove m).entries
    rw [(hperm.map fun e => (ofLex e).2).nodup_iff, List.map_cons, List.nodup_cons]
    exact ⟨by simp [remove], (s.remove m).nodup⟩

/-- The members with scores up to `hi`, in ascending order. -/
def upTo (s : SortedSet μ σ) (hi : σ) : List μ :=
  (s.entries.filter fun e => (ofLex e).1 ≤ hi).map fun e => (ofLex e).2

/-- The least entry: the member of the lowest score, the first of them in the order of members. -/
def least (s : SortedSet μ σ) : Option (μ × σ) := s.toList.head?

theorem score_eq_some_iff {s : SortedSet μ σ} {m : μ} {x : σ} :
    s.score m = some x ↔ toLex (x, m) ∈ s.entries := by
  constructor
  · intro h
    obtain ⟨e, he, rfl⟩ := Option.map_eq_some_iff.mp h
    have hm : (ofLex e).2 = m := by simpa using List.find?_some he
    subst hm
    exact List.mem_of_find?_eq_some he
  · intro h
    have hfind : s.entries.find? (fun e => (ofLex e).2 = m) = some (toLex (x, m)) := by
      have hsome : (s.entries.find? fun e => (ofLex e).2 = m).isSome := by
        rw [List.find?_isSome]
        exact ⟨_, h, by simp⟩
      obtain ⟨e, he⟩ := Option.isSome_iff_exists.mp hsome
      have hm : (ofLex e).2 = m := by simpa using List.find?_some he
      rw [he, List.inj_on_of_nodup_map s.nodup (List.mem_of_find?_eq_some he) h (by simpa using hm)]
    rw [score, hfind]
    rfl

theorem score_eq_none_iff {s : SortedSet μ σ} {m : μ} :
    s.score m = none ↔ ∀ x, toLex (x, m) ∉ s.entries := by
  rw [Option.eq_none_iff_forall_ne_some]
  exact forall_congr' fun x => not_congr score_eq_some_iff

@[simp] theorem score_empty (m : μ) : (∅ : SortedSet μ σ).score m = none := rfl

@[simp] theorem score_remove (s : SortedSet μ σ) (m m' : μ) :
    (s.remove m).score m' = if m' = m then none else s.score m' := by
  apply Option.ext
  intro x
  rw [score_eq_some_iff]
  by_cases h : m' = m
  · simp [remove, h]
  · simp [remove, h, score_eq_some_iff]

@[simp] theorem score_add (s : SortedSet μ σ) (m m' : μ) (x : σ) :
    (s.add m x).score m' = if m' = m then some x else s.score m' := by
  apply Option.ext
  intro y
  rw [score_eq_some_iff, add, List.mem_orderedInsert]
  by_cases h : m' = m
  · subst h
    simp [remove, eq_comm]
  · simp [remove, h, score_eq_some_iff]

theorem ext_score {s t : SortedSet μ σ} (h : ∀ m, s.score m = t.score m) : s = t := by
  have hmem : ∀ e, e ∈ s.entries ↔ e ∈ t.entries := fun e => by
    have hs : s.score (ofLex e).2 = some (ofLex e).1 ↔ e ∈ s.entries := score_eq_some_iff
    have ht : t.score (ofLex e).2 = some (ofLex e).1 ↔ e ∈ t.entries := score_eq_some_iff
    rw [← hs, h, ht]
  have hperm : s.entries.Perm t.entries :=
    (List.perm_ext_iff_of_nodup (List.Nodup.of_map _ s.nodup)
      (List.Nodup.of_map _ t.nodup)).mpr hmem
  exact ext_entries (hperm.eq_of_pairwise' s.sorted t.sorted)

theorem mem_upTo {s : SortedSet μ σ} {hi : σ} {m : μ} :
    m ∈ s.upTo hi ↔ ∃ x, s.score m = some x ∧ x ≤ hi := by
  simp only [upTo, List.mem_map, List.mem_filter, decide_eq_true_eq, score_eq_some_iff]
  constructor
  · rintro ⟨e, ⟨he, hle⟩, rfl⟩
    exact ⟨(ofLex e).1, he, hle⟩
  · rintro ⟨x, hx, hle⟩
    exact ⟨_, ⟨hx, hle⟩, rfl⟩

theorem mem_toList {s : SortedSet μ σ} {m : μ} {x : σ} :
    (m, x) ∈ s.toList ↔ s.score m = some x := by
  rw [score_eq_some_iff, toList, List.mem_map]
  constructor
  · rintro ⟨e, he, heq⟩
    obtain ⟨rfl, rfl⟩ := Prod.mk.inj heq
    exact he
  · exact fun h => ⟨_, h, rfl⟩

theorem upTo_nodup (s : SortedSet μ σ) (hi : σ) : (s.upTo hi).Nodup :=
  s.nodup.sublist (List.filter_sublist.map _)

theorem least_eq_none_iff {s : SortedSet μ σ} : s.least = none ↔ ∀ m, s.score m = none := by
  rw [least, List.head?_eq_none_iff]
  constructor
  · intro h m
    refine score_eq_none_iff.mpr fun x hx => ?_
    have := mem_toList.mpr (score_eq_some_iff.mpr hx)
    simp [h] at this
  · intro h
    refine List.eq_nil_iff_forall_not_mem.mpr fun ⟨m, x⟩ hmem => ?_
    have := mem_toList.mp hmem
    simp [h m] at this

theorem score_of_least {s : SortedSet μ σ} {m : μ} {x : σ} (h : s.least = some (m, x)) :
    s.score m = some x :=
  mem_toList.mp (List.mem_of_mem_head? h)

theorem least_le {s : SortedSet μ σ} {m m' : μ} {x y : σ} (h : s.least = some (m, x))
    (hm : s.score m' = some y) : toLex (x, m) ≤ toLex (y, m') := by
  rw [least, toList, List.head?_map, Option.map_eq_some_iff] at h
  obtain ⟨e, he, heq⟩ := h
  obtain ⟨rfl, rfl⟩ := Prod.mk.inj heq
  obtain ⟨es, hes⟩ : ∃ es, s.entries = e :: es := List.head?_eq_some_iff.mp he
  have hsorted := s.sorted
  have hin := score_eq_some_iff.mp hm
  rw [hes] at hsorted hin
  rcases List.mem_cons.mp hin with heq | htail
  · exact le_of_eq heq.symm
  · exact (List.pairwise_cons.mp hsorted).1 _ htail

theorem least_score_le {s : SortedSet μ σ} {m n : μ} {x y : σ} (h : s.least = some (m, x))
    (hn : s.score n = some y) : x ≤ y := by
  rcases (Prod.Lex.le_iff).mp (least_le h hn) with hlt | ⟨heq, -⟩
  · exact le_of_lt hlt
  · exact le_of_eq heq

end SortedSet
