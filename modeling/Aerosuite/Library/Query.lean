import Mathlib.Data.List.Basic
import Mathlib.Data.String.Basic

/-! Requests whose parameters have names, and lists in such requests.  The members of a list are
numbered from 1, member `n` of the list `pre` has its fields under the names `pre.n.field`, and a
service reads members up to the first number that is missing. -/

namespace Query

abbrev Params := List (String × String)

section Names

/-- The name of a field of a member. -/
def memberName (pre : String) (n : ℕ) (field : String) : String :=
  pre ++ "." ++ toString n ++ "." ++ field

theorem toList_memberName (pre : String) (n : ℕ) (field : String) :
    (memberName pre n field).toList =
      pre.toList ++ '.' :: (Nat.toDigits 10 n ++ '.' :: field.toList) := by
  simp [memberName, String.toList_append]

theorem dot_not_mem_digits (n : ℕ) : '.' ∉ Nat.toDigits 10 n := fun h => by
  have hdigit := Nat.isDigit_of_mem_toDigits (by decide) (by decide) h
  exact absurd hdigit (by decide)

theorem digits_injective : Function.Injective (Nat.toDigits 10) := fun m n h => by
  rw [← Nat.ofDigitChars_toDigits (b := 10) (n := m) (by decide) (by decide), h,
    Nat.ofDigitChars_toDigits (by decide) (by decide)]

theorem toString_injective : Function.Injective fun n : ℕ => toString n := fun m n h => by
  have hlist := congrArg String.toList h
  exact digits_injective (by simpa using hlist)

theorem append_cons_inj {α : Type} {a : α} {u v r s : List α} (hu : a ∉ u) (hv : a ∉ v)
    (h : u ++ a :: r = v ++ a :: s) : u = v ∧ r = s := by
  induction u generalizing v with
  | nil =>
    cases v with
    | nil => exact ⟨rfl, (List.cons.inj h).2⟩
    | cons y v => exact absurd List.mem_cons_self ((List.cons.inj h).1 ▸ hv)
  | cons x u ih =>
    cases v with
    | nil => exact absurd List.mem_cons_self ((List.cons.inj h).1 ▸ hu)
    | cons y v =>
      obtain ⟨rfl, htail⟩ := List.cons.inj h
      obtain ⟨rfl, hrest⟩ := ih (List.not_mem_of_not_mem_cons hu) (List.not_mem_of_not_mem_cons hv)
        htail
      exact ⟨rfl, hrest⟩

theorem memberName_inj {pre : String} {m n : ℕ} {f g : String} :
    memberName pre m f = memberName pre n g ↔ m = n ∧ f = g := by
  refine ⟨fun h => ?_, fun ⟨hn, hf⟩ => hn ▸ hf ▸ rfl⟩
  have hlist := congrArg String.toList h
  rw [toList_memberName, toList_memberName, List.append_cancel_left_eq, List.cons.injEq] at hlist
  obtain ⟨hdigits, hfield⟩ :=
    append_cons_inj (dot_not_mem_digits m) (dot_not_mem_digits n) hlist.2
  exact ⟨digits_injective hdigits, String.toList_injective hfield⟩

end Names

section Members

variable {α : Type}

/-- The members of a list that are numbered from `n` on, each with its fields. -/
def members (pre : String) (entries : α → Params) : ℕ → List α → Params
  | _, [] => []
  | n, x :: xs =>
    (entries x).map (fun entry => (memberName pre n entry.1, entry.2)) ++
      members pre entries (n + 1) xs

theorem members_append (pre : String) (entries : α → Params) (n : ℕ) (xs ys : List α) :
    members pre entries n (xs ++ ys) =
      members pre entries n xs ++ members pre entries (n + xs.length) ys := by
  induction xs generalizing n with
  | nil => rfl
  | cons x xs ih =>
    rw [List.cons_append, members, ih, members, List.append_assoc, List.length_cons,
      Nat.add_right_comm, Nat.add_assoc]

theorem lookup_entries (pre : String) (n m : ℕ) (field : String) (entries : Params) :
    (entries.map fun entry => (memberName pre n entry.1, entry.2)).lookup
      (memberName pre m field) = if m = n then entries.lookup field else none := by
  induction entries with
  | nil => simp
  | cons entry entries ih =>
    obtain ⟨f, v⟩ := entry
    by_cases hm : m = n
    · subst hm
      by_cases hf : field = f
      · simp [hf]
      · have hne : memberName pre m field ≠ memberName pre m f := fun h =>
          hf (memberName_inj.mp h).2
        simpa [List.lookup_cons, beq_eq_false_iff_ne.mpr hf, beq_eq_false_iff_ne.mpr hne] using ih
    · have hne : memberName pre m field ≠ memberName pre n f := fun h =>
        hm (memberName_inj.mp h).1
      simpa [List.lookup_cons, beq_eq_false_iff_ne.mpr hne, hm] using ih

theorem lookup_members_of_lt (pre : String) (entries : α → Params) {n m : ℕ} (h : m < n)
    (field : String) (xs : List α) :
    (members pre entries n xs).lookup (memberName pre m field) = none := by
  induction xs generalizing n with
  | nil => rfl
  | cons x xs ih =>
    rw [members, List.lookup_append, lookup_entries, if_neg (by omega), ih (by omega)]
    rfl

/-- A field of a member is found under its name. -/
theorem lookup_members (pre : String) (entries : α → Params) (n i : ℕ) (field : String)
    (xs : List α) : (members pre entries n xs).lookup (memberName pre (n + i) field) =
      xs[i]?.bind fun x => (entries x).lookup field := by
  induction xs generalizing n i with
  | nil => rfl
  | cons x xs ih =>
    rw [members, List.lookup_append, lookup_entries]
    cases i with
    | zero =>
      rw [if_pos (Nat.add_zero n), Nat.add_zero,
        lookup_members_of_lt pre entries (Nat.lt_succ_self n)]
      simp
    | succ i =>
      have hih := ih (n + 1) i
      rw [Nat.add_right_comm, Nat.add_assoc] at hih
      rw [if_neg (by omega), Option.none_or, hih, List.getElem?_cons_succ]

theorem lookup_members_of_ne (pre : String) (entries : α → Params) (n : ℕ) (xs : List α)
    {key : String} (h : ∀ m field, key ≠ memberName pre m field) :
    (members pre entries n xs).lookup key = none := by
  induction xs generalizing n with
  | nil => rfl
  | cons x xs ih =>
    rw [members, List.lookup_append, ih, Option.or_none, List.lookup_eq_none_iff]
    intro entry hentry
    obtain ⟨⟨field, v⟩, -, rfl⟩ := List.mem_map.mp hentry
    exact bne_iff_ne.mpr (h n field)

end Members

section Reading

variable {α : Type}

/-- What is read for the numbers from `n` on, at most `fuel` of them, up to the first that is
missing. -/
def numbered (read : ℕ → Option α) : ℕ → ℕ → List α
  | 0, _ => []
  | fuel + 1, n =>
    match read n with
    | none => []
    | some a => a :: numbered read fuel (n + 1)

theorem numbered_eq {read : ℕ → Option α} {xs : List α} {n fuel : ℕ}
    (h : ∀ i, read (n + i) = xs[i]?) (hfuel : xs.length ≤ fuel) : numbered read fuel n = xs := by
  induction xs generalizing n fuel with
  | nil =>
    cases fuel with
    | zero => rfl
    | succ fuel =>
      have hread : read n = none := by simpa using h 0
      rw [numbered, hread]
  | cons x xs ih =>
    cases fuel with
    | zero => simp at hfuel
    | succ fuel =>
      have hread : read n = some x := by simpa using h 0
      have hrest : numbered read fuel (n + 1) = xs :=
        ih (fun i => by simpa [Nat.add_right_comm, Nat.add_assoc] using h (i + 1))
          (by simpa using hfuel)
      rw [numbered, hread, hrest]

theorem length_members_le {entries : α → Params} (h : ∀ x, entries x ≠ []) (pre : String) (n : ℕ)
    (xs : List α) : xs.length ≤ (members pre entries n xs).length := by
  induction xs generalizing n with
  | nil => exact Nat.zero_le _
  | cons x xs ih =>
    have hpos := List.length_pos_iff.mpr (h x)
    have hih := ih (n + 1)
    rw [members, List.length_append, List.length_map, List.length_cons]
    omega

theorem length_entries_le (pre : String) (entries : α → Params) (n : ℕ) {xs : List α} {x : α}
    (h : x ∈ xs) : (entries x).length ≤ (members pre entries n xs).length := by
  induction xs generalizing n with
  | nil => cases h
  | cons y xs ih =>
    rw [members, List.length_append, List.length_map]
    rcases List.mem_cons.mp h with rfl | h
    · exact Nat.le_add_right _ _
    · exact (ih (n + 1) h).trans (Nat.le_add_left _ _)

end Reading

end Query
