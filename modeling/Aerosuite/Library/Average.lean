import Mathlib.Algebra.Order.BigOperators.Group.List
import Mathlib.Algebra.Order.Field.Basic
import Mathlib.Tactic.Ring

/-! Averages of measurements: the mean of a list, and the exponential average of a history, of which
the newest measurement comes first. -/

namespace Average

variable {ι K : Type} [Field K] [LinearOrder K] [IsStrictOrderedRing K]

section Mean

variable {xs : List ι} {f g : ι → K}

/-- The mean of the values that `f` gives to the members of a list. -/
def mean (f : ι → K) (xs : List ι) : K := (xs.map f).sum / xs.length

omit [LinearOrder K] [IsStrictOrderedRing K] in
theorem sum_eq_mean_mul [CharZero K] (hne : xs ≠ []) : (xs.map f).sum = mean f xs * xs.length := by
  have hlen : (xs.length : K) ≠ 0 := Nat.cast_ne_zero.mpr (mt List.length_eq_zero_iff.mp hne)
  rw [mean, div_mul_cancel₀ _ hlen]

theorem mean_le_mean (h : ∀ x ∈ xs, f x ≤ g x) : mean f xs ≤ mean g xs :=
  div_le_div_of_nonneg_right (List.sum_le_sum h) (Nat.cast_nonneg _)

theorem mean_eq_of_forall {c : K} (hne : xs ≠ []) (h : ∀ x ∈ xs, f x = c) : mean f xs = c := by
  have hlen : (xs.length : K) ≠ 0 := Nat.cast_ne_zero.mpr (mt List.length_eq_zero_iff.mp hne)
  rw [mean, List.map_congr_left h, List.map_const', List.sum_replicate, nsmul_eq_mul,
    mul_div_cancel_left₀ c hlen]

/-- Some value is at most the mean. -/
theorem exists_le_mean (f : ι → K) (hne : xs ≠ []) : ∃ x ∈ xs, f x ≤ mean f xs := by
  apply List.exists_le_of_sum_le hne f fun _ => mean f xs
  rw [List.map_const', List.sum_replicate, nsmul_eq_mul, sum_eq_mean_mul hne, mul_comm]

/-- Some value is at least the mean. -/
theorem exists_mean_le (f : ι → K) (hne : xs ≠ []) : ∃ x ∈ xs, mean f xs ≤ f x := by
  apply List.exists_le_of_sum_le hne (fun _ => mean f xs) f
  rw [List.map_const', List.sum_replicate, nsmul_eq_mul, sum_eq_mean_mul hne, mul_comm]

omit [LinearOrder K] [IsStrictOrderedRing K] in
/-- A loop that adds up the values that are there and counts them. -/
theorem foldl_sum_count {step : K × ℕ → ι → K × ℕ} (value : ι → Option K)
    (hnone : ∀ acc x, value x = none → step acc x = acc)
    (hsome : ∀ acc x v, value x = some v → step acc x = (acc.1 + v, acc.2 + 1))
    (total : K) (count : ℕ) :
    xs.foldl step (total, count) =
      (total + (xs.filterMap value).sum, count + (xs.filterMap value).length) := by
  induction xs generalizing total count with
  | nil => simp
  | cons x xs ih =>
    rw [List.foldl_cons]
    cases hvalue : value x with
    | none => rw [hnone _ _ hvalue, List.filterMap_cons_none hvalue, ih]
    | some v =>
      rw [hsome _ _ v hvalue, List.filterMap_cons_some hvalue, ih, List.sum_cons,
        List.length_cons, add_assoc, Nat.add_right_comm, Nat.add_assoc count]

end Mean

section Exponential

variable {α : K} {xs : List K}

/-- The exponential average of a history with the weight `α` of a new measurement. -/
def smoothed (α : K) (xs : List K) : K := xs.foldr (fun x older => α * x + (1 - α) * older) 0

/-- The largest measurement of a history, and zero when there is none above zero. -/
def largest (xs : List K) : K := xs.foldr max 0

omit [LinearOrder K] [IsStrictOrderedRing K] in
theorem smoothed_cons (x : K) : smoothed α (x :: xs) = α * x + (1 - α) * smoothed α xs := rfl

omit [IsStrictOrderedRing K] in
theorem largest_cons (x : K) : largest (x :: xs) = max x (largest xs) := rfl

theorem smoothed_nonneg (h₀ : 0 ≤ α) (h₁ : α ≤ 1) (hxs : ∀ x ∈ xs, 0 ≤ x) : 0 ≤ smoothed α xs := by
  induction xs with
  | nil => exact le_refl 0
  | cons x xs ih =>
    have hx := mul_nonneg h₀ (hxs x List.mem_cons_self)
    have hrest := mul_nonneg (sub_nonneg.mpr h₁) (ih fun y hy => hxs y (List.mem_cons_of_mem x hy))
    rw [smoothed_cons]
    exact add_nonneg hx hrest

/-- The exponential average stays below the largest measurement. -/
theorem smoothed_le_largest (h₀ : 0 ≤ α) (h₁ : α ≤ 1) : smoothed α xs ≤ largest xs := by
  induction xs with
  | nil => exact le_refl 0
  | cons x xs ih =>
    have hx := mul_le_mul_of_nonneg_left (le_max_left x (largest xs)) h₀
    have hrest := mul_le_mul_of_nonneg_left (ih.trans (le_max_right x (largest xs)))
      (sub_nonneg.mpr h₁)
    rw [smoothed_cons, largest_cons]
    calc α * x + (1 - α) * smoothed α xs
        ≤ α * max x (largest xs) + (1 - α) * max x (largest xs) := add_le_add hx hrest
      _ = max x (largest xs) := by ring

end Exponential

end Average
