import Mathlib.Data.Int.Log
import Mathlib.Data.Rat.Floor
import Mathlib.Order.WithBot
import Mathlib.Tactic.Linarith

/-! Binary64 numbers as the values that they stand for: the rational numbers with a significand of
53 bits, and the two infinities.  An operation rounds its exact result to the nearest of them, and
of two to the one with the even significand. -/

/-- The finite binary64 numbers. -/
def Binary64.Finite (x : ℚ) : Prop :=
  (∃ m e : ℤ, |m| < 2 ^ 53 ∧ -1074 ≤ e ∧ x = m * 2 ^ e) ∧ |x| < 2 ^ 1024

/-- A binary64 number that is ordered: there is no NaN, and one zero. -/
inductive Binary64 where
  | negInfinity
  | finite (x : ℚ) (h : Binary64.Finite x)
  | infinity
  deriving DecidableEq

namespace Binary64

section Rounding

/-- The integer nearest to `x`, and of two the even one. -/
def roundEven (x : ℚ) : ℤ :=
  if x - ⌊x⌋ < 1 / 2 then ⌊x⌋
  else if 1 / 2 < x - ⌊x⌋ then ⌊x⌋ + 1
  else if ⌊x⌋ % 2 = 0 then ⌊x⌋
  else ⌊x⌋ + 1

/-- The exponent of the last bit of the significand that `x` is rounded to. -/
def lastBit (x : ℚ) : ℤ := max (-1074) (Int.log 2 |x| - 52)

/-- The nearest number with a significand of 53 bits, were there no largest one. -/
def nearest (x : ℚ) : ℚ := roundEven (x / 2 ^ lastBit x) * 2 ^ lastBit x

@[simp] theorem roundEven_intCast (n : ℤ) : roundEven n = n := by
  simp [roundEven]

theorem abs_roundEven_le {x : ℚ} {n : ℤ} (h : |x| ≤ n) : |roundEven x| ≤ n := by
  obtain ⟨hlow, hhigh⟩ := abs_le.mp h
  have hfloor : -n ≤ ⌊x⌋ := Int.le_floor.mpr (by simpa using hlow)
  have hle : ⌊x⌋ ≤ n := by
    have hcast := (Int.floor_le x).trans hhigh
    exact_mod_cast hcast
  -- Where the floor is `n` itself, nothing is left to round up.
  have hup : 1 / 2 ≤ x - ⌊x⌋ → ⌊x⌋ + 1 ≤ n := fun hhalf => by
    by_contra hlt
    have heq : ⌊x⌋ = n := by omega
    rw [heq] at hhalf
    linarith
  unfold roundEven
  split
  · exact abs_le.mpr ⟨hfloor, hle⟩
  next hhalf =>
    have hle' := hup (not_lt.mp hhalf)
    split
    · exact abs_le.mpr ⟨by omega, hle'⟩
    · split
      · exact abs_le.mpr ⟨hfloor, hle⟩
      · exact abs_le.mpr ⟨by omega, hle'⟩

theorem abs_lt_lastBit (x : ℚ) : |x| < 2 ^ (lastBit x + 53) := by
  have hlog : |x| < 2 ^ (Int.log 2 |x| + 1) := by
    simpa using Int.lt_zpow_succ_log_self (b := 2) (by decide) |x|
  refine hlog.trans_le (zpow_le_zpow_right₀ (by norm_num) ?_)
  have hmax := le_max_right (-1074) (Int.log 2 |x| - 52)
  unfold lastBit
  omega

theorem lastBit_le {x : ℚ} {e : ℤ} (hx : x ≠ 0) (h : |x| < 2 ^ (e + 53)) (he : -1074 ≤ e) :
    lastBit x ≤ e := by
  have hlog : Int.log 2 |x| < e + 53 := by
    refine (Int.lt_zpow_iff_log_lt (by decide) (abs_pos.mpr hx)).mp ?_
    simpa using h
  exact max_le he (by omega)

theorem mul_two_zpow_abs (m e : ℤ) : |(m : ℚ) * 2 ^ e| = |m| * 2 ^ e := by
  have hpos : (0 : ℚ) < 2 ^ e := zpow_pos (by norm_num) e
  rw [abs_mul, abs_of_pos hpos, Int.cast_abs]

/-- A number that has a significand of 53 bits is its own nearest one. -/
theorem nearest_of_finite {x : ℚ} (h : Finite x) : nearest x = x := by
  obtain ⟨⟨m, e, hm, he, rfl⟩, -⟩ := h
  by_cases hx : (m : ℚ) * 2 ^ e = 0
  · rw [hx]
    simp [nearest, roundEven]
  · have hbound : |(m : ℚ) * 2 ^ e| < 2 ^ (e + 53) := by
      rw [mul_two_zpow_abs, zpow_add₀ (by norm_num), mul_comm]
      refine mul_lt_mul_of_pos_left ?_ (zpow_pos (by norm_num) e)
      exact_mod_cast hm
    have hle := lastBit_le hx hbound he
    -- The scaled number is an integer, which is not rounded.
    have hscaled : (m : ℚ) * 2 ^ e / 2 ^ lastBit (m * 2 ^ e) =
        ((m * 2 ^ (e - lastBit (m * 2 ^ e)).toNat : ℤ) : ℚ) := by
      rw [mul_div_assoc, ← zpow_sub₀ (by norm_num)]
      push_cast
      rw [← zpow_natCast, Int.toNat_of_nonneg (by omega)]
    rw [nearest, hscaled, roundEven_intCast, ← hscaled]
    exact div_mul_cancel₀ _ (zpow_ne_zero _ (by norm_num))

theorem finite_nearest {x : ℚ} (h : |nearest x| < 2 ^ 1024) : Finite (nearest x) := by
  have hpos : (0 : ℚ) < 2 ^ lastBit x := zpow_pos (by norm_num) _
  have hscaled : |x / 2 ^ lastBit x| ≤ ((2 ^ 53 : ℤ) : ℚ) := by
    rw [abs_div, abs_of_pos hpos, div_le_iff₀ hpos]
    have hlt := (abs_lt_lastBit x).le
    rw [zpow_add₀ (by norm_num)] at hlt
    push_cast
    linarith
  have hle : -1074 ≤ lastBit x := le_max_left _ _
  refine ⟨?_, h⟩
  rcases (abs_roundEven_le hscaled).lt_or_eq with hlt | heq
  · exact ⟨_, _, hlt, hle, rfl⟩
  · -- A significand that is rounded up to 2 ^ 53 has a spare last bit.
    obtain hm | hm := abs_eq (by positivity) |>.mp heq
    · refine ⟨2 ^ 52, lastBit x + 1, by norm_num, by omega, ?_⟩
      rw [nearest, hm, zpow_add₀ (by norm_num)]
      push_cast
      ring
    · refine ⟨-2 ^ 52, lastBit x + 1, by norm_num, by omega, ?_⟩
      rw [nearest, hm, zpow_add₀ (by norm_num)]
      push_cast
      ring

theorem finite_natCast {m k : ℕ} (hm : m < 2 ^ 53) (hk : k ≤ 64) :
    Finite ((m * 2 ^ k : ℕ) : ℚ) := by
  have hm' : |(m : ℤ)| < 2 ^ 53 := by
    rw [abs_of_nonneg (by positivity)]
    exact_mod_cast hm
  refine ⟨⟨m, k, hm', by omega, by simp⟩, ?_⟩
  have hlt : m * 2 ^ k < 2 ^ 53 * 2 ^ 64 :=
    Nat.mul_lt_mul_of_lt_of_le hm (Nat.pow_le_pow_right (by decide) hk) (by positivity)
  calc |((m * 2 ^ k : ℕ) : ℚ)| = (m * 2 ^ k : ℕ) := Nat.abs_cast _
    _ < (2 ^ 53 * 2 ^ 64 : ℕ) := Nat.cast_lt.mpr hlt
    _ = 2 ^ 117 := by norm_num
    _ < 2 ^ 1024 := pow_lt_pow_right₀ (by norm_num) (by norm_num)

end Rounding

section Numbers

/-- The value that a number stands for. -/
def value : Binary64 → WithBot (WithTop ℚ)
  | .negInfinity => ⊥
  | .finite x _ => ((x : WithTop ℚ) : WithBot (WithTop ℚ))
  | .infinity => ((⊤ : WithTop ℚ) : WithBot (WithTop ℚ))

theorem value_injective : Function.Injective value := by
  intro a b h
  cases a <;> cases b <;> simp_all [value]

instance : LinearOrder Binary64 := LinearOrder.lift' value value_injective

/-- The number that an exact result is rounded to. -/
def ofRat (x : ℚ) : Binary64 :=
  if h : |nearest x| < 2 ^ 1024 then .finite (nearest x) (finite_nearest h)
  else if 0 < x then .infinity
  else .negInfinity

/-- Infinities of both signs have no sum, which is left at the negative one. -/
instance : Add Binary64 where
  add
    | .finite x _, .finite y _ => ofRat (x + y)
    | .negInfinity, _ | _, .negInfinity => .negInfinity
    | .infinity, _ | _, .infinity => .infinity

instance : Zero Binary64 := ⟨ofRat 0⟩

theorem ofRat_of_finite {x : ℚ} (h : Finite x) : ofRat x = .finite x h := by
  have hnearest := nearest_of_finite h
  rw [ofRat, dif_pos (by rw [hnearest]; exact h.2)]
  congr

/-- The sum of numbers is their exact sum, rounded once. -/
theorem ofRat_add {x y : ℚ} (hx : Finite x) (hy : Finite y) :
    ofRat x + ofRat y = ofRat (x + y) := by
  rw [ofRat_of_finite hx, ofRat_of_finite hy]
  rfl

end Numbers

end Binary64
