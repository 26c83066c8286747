import Mathlib.Data.List.Basic
import Mathlib.Data.List.DropRight
import Mathlib.Tactic.IntervalCases

/-! The parts of Rust's `str` that the programs use, on lists of characters: white space, lines,
prefixes, and the parsing of unsigned integers. -/

namespace Text

/-- The characters with the property `White_Space` of Unicode. -/
def isWhitespace (c : Char) : Bool :=
  let n := c.toNat
  (9 ≤ n && n ≤ 13) || n == 0x20 || n == 0x85 || n == 0xA0 || n == 0x1680 ||
    (0x2000 ≤ n && n ≤ 0x200A) || n == 0x2028 || n == 0x2029 || n == 0x202F || n == 0x205F ||
    n == 0x3000

def trimStart (s : List Char) : List Char := s.dropWhile isWhitespace

def trim (s : List Char) : List Char := (trimStart (trimStart s).reverse).reverse

def splitWhitespace (s : List Char) : List (List Char) :=
  (s.splitOnP isWhitespace).filter (!·.isEmpty)

def stripPrefix (p s : List Char) : Option (List Char) :=
  if p.isPrefixOf s then some (s.drop p.length) else none

def stripSuffix (p s : List Char) : Option (List Char) :=
  if p.isSuffixOf s then some (s.take (s.length - p.length)) else none

/-- The lines of a text: a line ends with a line feed or a carriage return and a line feed, and
what follows the last line feed is a line unless it is empty. -/
def lines (s : List Char) : List (List Char) :=
  let pieces := s.splitOn '\n'
  pieces.dropLast.map (fun line => (stripSuffix ['\r'] line).getD line) ++
    pieces.getLast?.toList.filter (!·.isEmpty)

/-- The text before and after the first `sep`. -/
def splitOnce (sep : Char) (s : List Char) : Option (List Char × List Char) :=
  match s.dropWhile (· != sep) with
  | [] => none
  | _ :: rest => some (s.takeWhile (· != sep), rest)

/-- The text contains `pat`. -/
def contains (s pat : List Char) : Bool := s.tails.any pat.isPrefixOf

/-- `char::to_digit`. -/
def toDigit (radix : ℕ) (c : Char) : Option ℕ :=
  let digit :=
    if '0' ≤ c ∧ c ≤ '9' then some (c.toNat - '0'.toNat)
    else if 'a' ≤ c ∧ c ≤ 'z' then some (c.toNat - 'a'.toNat + 10)
    else if 'A' ≤ c ∧ c ≤ 'Z' then some (c.toNat - 'A'.toNat + 10)
    else none
  digit.filter (· < radix)

/-- The number that a list of digits stands for, after the digits of `n`. -/
def digitsValue (radix : ℕ) : ℕ → List Char → Option ℕ
  | n, [] => some n
  | n, c :: s =>
    match toDigit radix c with
    | none => none
    | some d => digitsValue radix (radix * n + d) s

/-- `from_str_radix` of an unsigned integer type whose largest value is `max`. -/
def parseUint (radix max : ℕ) (s : List Char) : Option ℕ :=
  match (stripPrefix ['+'] s).getD s with
  | [] => none
  | digits => (digitsValue radix 0 digits).filter (· ≤ max)

def parseU8 (s : List Char) : Option ℕ := parseUint 10 (2 ^ 8 - 1) s

def parseU32 (s : List Char) : Option ℕ := parseUint 10 (2 ^ 32 - 1) s

def parseU64 (s : List Char) : Option ℕ := parseUint 10 (2 ^ 64 - 1) s

/-- `FromStr` of `i64`: a sign and decimal digits. -/
def parseI64 (s : List Char) : Option ℤ :=
  match stripPrefix ['-'] s with
  | some [] => none
  | some digits => ((digitsValue 10 0 digits).filter (· ≤ 2 ^ 63)).map fun n => -(n : ℤ)
  | none => (parseUint 10 (2 ^ 63 - 1) s).map fun n => (n : ℤ)

theorem parseUint_le {radix max n : ℕ} {s : List Char} (h : parseUint radix max s = some n) :
    n ≤ max := by
  unfold parseUint at h
  split at h
  · cases h
  · simpa using (Option.filter_eq_some_iff.mp h).2

theorem toDigit_digitChar {d : ℕ} (hd : d < 10) : toDigit 10 (Nat.digitChar d) = some d := by
  interval_cases d <;> rfl

theorem digitsValue_append (radix n : ℕ) (s t : List Char) :
    digitsValue radix n (s ++ t) = (digitsValue radix n s).bind (digitsValue radix · t) := by
  induction s generalizing n with
  | nil => rfl
  | cons c s ih =>
    cases hc : toDigit radix c with
    | none => simp [digitsValue, hc]
    | some d => simp [digitsValue, hc, ih]

theorem digitsValue_toDigits (n : ℕ) : digitsValue 10 0 (Nat.toDigits 10 n) = some n := by
  induction n using Nat.strong_induction_on with
  | _ n ih =>
  rw [Nat.toDigits_eq_if (by decide)]
  split
  · next h => simp [digitsValue, toDigit_digitChar h]
  · next h =>
    have hdigit := toDigit_digitChar (Nat.mod_lt n (show 0 < 10 by decide))
    rw [digitsValue_append, ih _ (by omega)]
    simp only [Option.bind_some, digitsValue, hdigit]
    exact congrArg some (Nat.div_add_mod n 10)

theorem toDigits_head_ne (n : ℕ) : stripPrefix ['+'] (Nat.toDigits 10 n) = none := by
  have hdigit : ∀ c ∈ Nat.toDigits 10 n, c.isDigit :=
    fun c => Nat.isDigit_of_mem_toDigits (by decide) (by decide)
  cases h : Nat.toDigits 10 n with
  | nil => rfl
  | cons c s =>
    have hc : c ≠ '+' := by
      rintro rfl
      have := hdigit '+' (by simp [h])
      simp at this
    simp [stripPrefix, hc.symm]

theorem parseUint_toDigits {max n : ℕ} (h : n ≤ max) :
    parseUint 10 max (Nat.toDigits 10 n) = some n := by
  unfold parseUint
  rw [toDigits_head_ne, Option.getD_none]
  split
  · next hnil => exact absurd hnil Nat.toDigits_ne_nil
  · simp [digitsValue_toDigits, h]

theorem digitsValue_eq_none {radix n : ℕ} {s : List Char} {c : Char} (hc : c ∈ s)
    (hdigit : toDigit radix c = none) : digitsValue radix n s = none := by
  induction s generalizing n with
  | nil => cases hc
  | cons d s ih =>
    rw [digitsValue]
    split
    · rfl
    · next hd =>
      rcases List.mem_cons.mp hc with rfl | hc
      · cases hd.symm.trans hdigit
      · exact ih hc

theorem stripPrefix_eq_some {p s t : List Char} : stripPrefix p s = some t ↔ s = p ++ t := by
  unfold stripPrefix
  constructor
  · intro h
    obtain ⟨hpre, ht⟩ := Option.ite_none_right_eq_some.mp h
    obtain ⟨u, rfl⟩ := List.isPrefixOf_iff_prefix.mp hpre
    rw [List.drop_left] at ht
    rw [Option.some.inj ht]
  · rintro rfl
    rw [if_pos (List.isPrefixOf_iff_prefix.mpr (List.prefix_append _ _)), List.drop_left]

theorem stripSuffix_eq_some {p s t : List Char} : stripSuffix p s = some t ↔ s = t ++ p := by
  unfold stripSuffix
  constructor
  · intro h
    obtain ⟨hsuf, ht⟩ := Option.ite_none_right_eq_some.mp h
    obtain ⟨u, rfl⟩ := List.isSuffixOf_iff_suffix.mp hsuf
    rw [List.length_append, Nat.add_sub_cancel_right, List.take_left] at ht
    rw [Option.some.inj ht]
  · rintro rfl
    rw [if_pos (List.isSuffixOf_iff_suffix.mpr (List.suffix_append _ _)), List.length_append,
      Nat.add_sub_cancel_right, List.take_left]

theorem mem_of_stripPrefix {c x : Char} {s rest : List Char} (h : stripPrefix [x] s = some rest)
    (hc : c ∈ s) (hne : c ≠ x) : c ∈ rest := by
  obtain rfl := stripPrefix_eq_some.mp h
  simpa [hne] using hc

/-- A text with a mark that is neither a sign nor a digit is no integer. -/
theorem parseI64_eq_none {s : List Char} {c : Char} (hc : c ∈ s) (hplus : c ≠ '+')
    (hminus : c ≠ '-') (hdigit : toDigit 10 c = none) : parseI64 s = none := by
  unfold parseI64
  split
  · rfl
  · next digits _ hstrip =>
    rw [digitsValue_eq_none (mem_of_stripPrefix hstrip hc hminus) hdigit]
    rfl
  · have hrest : c ∈ (stripPrefix ['+'] s).getD s := by
      cases hstrip : stripPrefix ['+'] s with
      | none => exact hc
      | some rest => exact mem_of_stripPrefix hstrip hc hplus
    unfold parseUint
    split
    · rfl
    · rw [digitsValue_eq_none hrest hdigit]
      rfl

theorem mem_trim {s : List Char} {c : Char} (hc : c ∈ s) (hspace : isWhitespace c = false) :
    c ∈ trim s := by
  have hstart : ∀ t : List Char, c ∈ t → c ∈ trimStart t := fun t ht => by
    have hsplit := List.takeWhile_append_dropWhile (p := isWhitespace) (l := t)
    rw [← hsplit] at ht
    rcases List.mem_append.mp ht with htake | hdrop
    · have htrue := List.mem_takeWhile_imp htake
      simp [hspace] at htrue
    · exact hdrop
  rw [trim, List.mem_reverse]
  exact hstart _ (List.mem_reverse.mpr (hstart s hc))

theorem trim_trim (s : List Char) : trim (trim s) = trim s := by
  have hstart : trimStart (trim s) = trim s := by
    refine List.dropWhile_eq_self_iff.mpr fun hlt => ?_
    have hpre : trim s <+: trimStart s := List.rdropWhile_prefix isWhitespace (trimStart s)
    rw [hpre.getElem hlt]
    exact List.dropWhile_get_zero_not isWhitespace s _
  rw [trim, hstart]
  exact List.rdropWhile_idempotent isWhitespace (trimStart s)

end Text
