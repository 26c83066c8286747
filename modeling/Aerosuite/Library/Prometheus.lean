import Aerosuite.Library.Lines
import Mathlib.Algebra.BigOperators.Group.List.Basic

/-! The text format in which Prometheus reads metrics: lines of samples, with their types and help
texts, the lines of one metric together.  That no two samples of a text have the same labels is not
a rule about its lines and is left out. -/

namespace Prometheus

/-- How the numbers of a type are written and read. -/
class Number (F : Type) where
  display : F → List Char
  parse : List Char → Option F
  ofNat : ℕ → F
  parse_display : ∀ v, parse (display v) = some v
  parse_ofNat : ∀ n < 2 ^ 64, parse (Nat.toDigits 10 n) = some (ofNat n)
  display_ne_nil : ∀ v, display v ≠ []
  display_plain : ∀ v, ((display v).all fun c => c.isAlphanum || c == '.' || c == '-') = true

inductive MetricType where
  | counter
  | gauge
  | histogram
  | summary
  | untyped
  deriving DecidableEq

def MetricType.text : MetricType → String
  | .counter => "counter"
  | .gauge => "gauge"
  | .histogram => "histogram"
  | .summary => "summary"
  | .untyped => "untyped"

/-- The labels of a sample. -/
abbrev Labels := List (List Char × List Char)

/-- What a line says. -/
inductive Line (F : Type) where
  | comment
  | help (metric doc : List Char)
  | type (metric : List Char) (kind : MetricType)
  | sample (metric : List Char) (labels : Labels) (value : F)

section Reader

def isBlank (c : Char) : Bool := c == ' ' || c == '\t'

def skipBlanks (s : List Char) : List Char := s.dropWhile isBlank

def tokens (s : List Char) : List (List Char) := (s.splitOnP isBlank).filter (!·.isEmpty)

def isLabelStart (c : Char) : Bool := c.isAlpha || c == '_'

def isLabelChar (c : Char) : Bool := isLabelStart c || c.isDigit

def isLabelName : List Char → Bool
  | [] => false
  | c :: s => isLabelStart c && s.all isLabelChar

def isMetricStart (c : Char) : Bool := isLabelStart c || c == ':'

def isMetricChar (c : Char) : Bool := isMetricStart c || c.isDigit

def isMetricName : List Char → Bool
  | [] => false
  | c :: s => isMetricStart c && s.all isMetricChar

/-- The text after a character that may follow blanks. -/
def expect (c : Char) (s : List Char) : Option (List Char) :=
  Text.stripPrefix [c] (skipBlanks s)

/-- What a character after a backslash stands for in a label value. -/
def unescape (c : Char) : Option Char :=
  if c = '\\' then some '\\' else if c = '"' then some '"' else if c = 'n' then some '\n' else none

/-- A label value up to its closing quote. -/
def readValue : List Char → Option (List Char × List Char)
  | [] => none
  | '"' :: s => some ([], s)
  | '\\' :: c :: s =>
    (unescape c).bind fun d => (readValue s).map fun r => (d :: r.1, r.2)
  | '\\' :: [] => none
  | c :: s => (readValue s).map fun r => (c :: r.1, r.2)

/-- A name and a quoted value. -/
def readLabel (s : List Char) : Option ((List Char × List Char) × List Char) :=
  let name := (skipBlanks s).takeWhile isLabelChar
  if isLabelName name then
    (expect '=' ((skipBlanks s).dropWhile isLabelChar)).bind fun s =>
      (expect '"' s).bind fun s => (readValue s).map fun r => ((name, r.1), r.2)
  else none

/-- Labels up to the closing brace.  A comma may follow the last one. -/
def readLabels : ℕ → List Char → Option (Labels × List Char)
  | 0, _ => none
  | fuel + 1, s =>
    match expect '}' s with
    | some rest => some ([], rest)
    | none =>
      (readLabel s).bind fun (label, s) =>
        match expect '}' s with
        | some rest => some ([label], rest)
        | none =>
          (expect ',' s).bind fun s =>
            (readLabels fuel s).map fun r => (label :: r.1, r.2)

/-- A help text, in which a backslash and a line feed are escaped. -/
def unescapeDoc : List Char → Option (List Char)
  | [] => some []
  | '\\' :: '\\' :: s => (unescapeDoc s).map ('\\' :: ·)
  | '\\' :: 'n' :: s => (unescapeDoc s).map ('\n' :: ·)
  | '\\' :: _ => none
  | c :: s => (unescapeDoc s).map (c :: ·)

def readType (s : List Char) : Option MetricType :=
  [MetricType.counter, .gauge, .histogram, .summary, .untyped].find? fun k => k.text.toList = s

variable {F : Type}

/-- What follows the sign of a comment. -/
def readComment (s : List Char) : Option (Line F) :=
  let keyword := (skipBlanks s).takeWhile fun c => !isBlank c
  let rest := skipBlanks ((skipBlanks s).dropWhile fun c => !isBlank c)
  if keyword = "HELP".toList then
    let metric := rest.takeWhile fun c => !isBlank c
    if isMetricName metric then
      (unescapeDoc (skipBlanks (rest.dropWhile fun c => !isBlank c))).map (.help metric)
    else none
  else if keyword = "TYPE".toList then
    match tokens rest with
    | [metric, kind] => if isMetricName metric then (readType kind).map (.type metric) else none
    | _ => none
  else some .comment

/-- A number, and a time stamp that may follow it. -/
def readNumber [Number F] (s : List Char) : Option F :=
  match tokens s with
  | [value] => Number.parse value
  | [value, timestamp] => if (Text.parseI64 timestamp).isSome then Number.parse value else none
  | _ => none

def readSample [Number F] (s : List Char) : Option (Line F) :=
  let metric := s.takeWhile isMetricChar
  let rest := s.dropWhile isMetricChar
  if isMetricName metric then
    (match expect '{' rest with
      | some rest => readLabels (rest.length + 1) rest
      | none => some ([], rest)).bind fun (labels, rest) =>
        if (labels.map Prod.fst).Nodup then (readNumber rest).map (.sample metric labels) else none
  else none

/-- A line, if it is well formed. -/
def readLine (F : Type) [Number F] (line : List Char) : Option (Line F) :=
  match skipBlanks line with
  | [] => some .comment
  | '#' :: s => readComment s
  | s => readSample s

/-- The lines of a text, each of which ends with a line feed. -/
def textLines (text : List Char) : List (List Char) := (text.splitOn '\n').dropLast

/-- The lines that are well formed. -/
def readText (F : Type) [Number F] (text : List Char) : List (Line F) :=
  (textLines text).filterMap (readLine F)

end Reader

section Rules

variable {F : Type}

/-- What a line is for its metric. -/
inductive Tag where
  | help
  | type
  | sample
  deriving DecidableEq

def Line.tag : Line F → Option (List Char × Tag)
  | .comment => none
  | .help metric _ => some (metric, .help)
  | .type metric _ => some (metric, .type)
  | .sample metric _ _ => some (metric, .sample)

def Line.typeOf : Line F → Option (List Char × MetricType)
  | .type metric kind => some (metric, kind)
  | _ => none

def Line.sampleOf : Line F → Option (List Char × Labels × F)
  | .sample metric labels value => some (metric, labels, value)
  | _ => none

/-- Equal members stand together. -/
def Grouped {α : Type} [DecidableEq α] : List α → Prop
  | [] => True
  | a :: l => a ∉ l.dropWhile (· = a) ∧ Grouped l

/-- The rules about the lines of a text: a metric has one help text and one type at most, both
before its samples, and its lines stand together. -/
structure Valid (tags : List (List Char × Tag)) : Prop where
  help_once : ∀ metric, tags.count (metric, .help) ≤ 1
  type_once : ∀ metric, tags.count (metric, .type) ≤ 1
  grouped : Grouped (tags.map Prod.fst)
  metadata_first : tags.Pairwise fun a b => a.1 = b.1 → a.2 = .sample → b.2 = .sample

/-- A text in the format. -/
structure ValidText (F : Type) [Number F] (text : List Char) : Prop where
  ends : (text.splitOn '\n').getLast? = some []
  lines : ∀ line ∈ textLines text, (readLine F line).isSome
  valid : Valid ((readText F text).filterMap Line.tag)

/-- A sample and its type. -/
structure Sample (F : Type) where
  metric : List Char
  labels : Labels
  value : F
  kind : MetricType

/-- The type that the lines give to a metric. -/
def typeIn (ls : List (Line F)) (metric : List Char) : MetricType :=
  (((ls.filterMap Line.typeOf).find? fun t => t.1 = metric).map Prod.snd).getD .untyped

/-- The samples of a text. -/
def samples (ls : List (Line F)) : List (Sample F) :=
  (ls.filterMap Line.sampleOf).map fun s => ⟨s.1, s.2.1, s.2.2, typeIn ls s.1⟩

end Rules

section Lexing

theorem isBlank_eq_false {p : Char → Bool} (hspace : p ' ' = false) (htab : p '\t' = false)
    {c : Char} (h : p c = true) : isBlank c = false := by
  rw [← Bool.not_eq_true]
  intro hblank
  have hc : c = ' ' ∨ c = '\t' := by simpa [isBlank] using hblank
  rcases hc with rfl | rfl
  · rw [hspace] at h
    cases h
  · rw [htab] at h
    cases h

theorem isBlank_of_isLabelChar {c : Char} (h : isLabelChar c = true) : isBlank c = false :=
  isBlank_eq_false (by decide) (by decide) h

theorem isBlank_of_isMetricChar {c : Char} (h : isMetricChar c = true) : isBlank c = false :=
  isBlank_eq_false (by decide) (by decide) h

/-- Where the first characters end that satisfy `p`. -/
theorem takeWhile_append_cons {α : Type} {p : α → Bool} {w : List α} (hw : ∀ c ∈ w, p c = true)
    {c : α} (hc : p c = false) (s : List α) :
    (w ++ c :: s).takeWhile p = w ∧ (w ++ c :: s).dropWhile p = c :: s := by
  have hneg : ¬ p c = true := by simp [hc]
  constructor
  · rw [List.takeWhile_append_of_pos hw, List.takeWhile_cons_of_neg hneg, List.append_nil]
  · rw [List.dropWhile_append_of_pos hw, List.dropWhile_cons_of_neg hneg]

theorem all_of_isLabelName {name : List Char} (h : isLabelName name = true) :
    name ≠ [] ∧ ∀ c ∈ name, isLabelChar c = true := by
  cases name with
  | nil => cases h
  | cons c s =>
    simp only [isLabelName, Bool.and_eq_true, List.all_eq_true] at h
    refine ⟨by simp, List.forall_mem_cons.mpr ⟨?_, h.2⟩⟩
    simp [isLabelChar, h.1]

theorem all_of_isMetricName {name : List Char} (h : isMetricName name = true) :
    name ≠ [] ∧ ∀ c ∈ name, isMetricChar c = true := by
  cases name with
  | nil => cases h
  | cons c s =>
    simp only [isMetricName, Bool.and_eq_true, List.all_eq_true] at h
    refine ⟨by simp, List.forall_mem_cons.mpr ⟨?_, h.2⟩⟩
    simp [isMetricChar, h.1]

theorem skipBlanks_cons {c : Char} (h : isBlank c = false) (s : List Char) :
    skipBlanks (c :: s) = c :: s := List.dropWhile_cons_of_neg (by simp [h])

theorem skipBlanks_append {w : List Char} (hne : w ≠ []) (h : ∀ c ∈ w, isBlank c = false)
    (s : List Char) : skipBlanks (w ++ s) = w ++ s := by
  cases w with
  | nil => exact absurd rfl hne
  | cons c w => exact skipBlanks_cons (h c List.mem_cons_self) (w ++ s)

theorem expect_cons {c : Char} (h : isBlank c = false) (s : List Char) :
    expect c (c :: s) = some s := by
  rw [expect, skipBlanks_cons h, Text.stripPrefix_eq_some]
  rfl

theorem expect_ne {c d : Char} (h : isBlank d = false) (hne : d ≠ c) (s : List Char) :
    expect c (d :: s) = none := by
  rw [expect, skipBlanks_cons h, Option.eq_none_iff_forall_ne_some]
  intro rest hrest
  rw [Text.stripPrefix_eq_some] at hrest
  exact hne (List.cons.inj hrest).1

/-- A character is found after blanks. -/
theorem expect_eq_some {c : Char} {s rest : List Char} (h : expect c s = some rest) :
    ∃ blanks, s = blanks ++ c :: rest ∧ ∀ b ∈ blanks, isBlank b = true := by
  rw [expect, Text.stripPrefix_eq_some] at h
  refine ⟨s.takeWhile isBlank, ?_, fun b hb => List.mem_takeWhile_imp hb⟩
  have hsplit := List.takeWhile_append_dropWhile (p := isBlank) (l := s)
  rw [show s.dropWhile isBlank = c :: rest from h] at hsplit
  exact hsplit.symm

end Lexing

section Labels

/-- A label as it is written when nothing in its value is escaped. -/
def labelItem (label : List Char × List Char) : List Char :=
  label.1 ++ '=' :: '"' :: (label.2 ++ ['"'])

def labelText (labels : Labels) : List Char := [','].intercalate (labels.map labelItem)

/-- A value that needs no escape: without quote, backslash and line feed. -/
def CleanValue (v : List Char) : Prop := '"' ∉ v ∧ '\\' ∉ v ∧ '\n' ∉ v

/-- The characters of the labels, with an equals sign, two quotes and a separator for each. -/
def labelSize (labels : Labels) : ℕ := (labels.map fun l => l.1.length + l.2.length + 4).sum

theorem labelText_cons (label : List Char × List Char) {labels : Labels} (h : labels ≠ []) :
    labelText (label :: labels) = labelItem label ++ ',' :: labelText labels := by
  obtain ⟨label', labels, rfl⟩ := List.exists_cons_of_ne_nil h
  simp [labelText, List.intercalate_cons_cons]

theorem length_labelText {labels : Labels} (h : labels ≠ []) :
    (labelText labels).length + 1 = labelSize labels := by
  induction labels with
  | nil => exact absurd rfl h
  | cons label labels ih =>
    cases labels with
    | nil =>
      simp only [labelText, labelItem, labelSize, List.map_cons, List.map_nil,
        List.intercalate_singleton, List.length_append, List.length_cons, List.length_nil,
        List.sum_cons, List.sum_nil]
      omega
    | cons label' labels =>
      have htail := ih (by simp)
      rw [labelText_cons _ (by simp), List.length_append, List.length_cons]
      simp only [labelSize, List.map_cons, List.sum_cons] at htail ⊢
      simp only [labelItem, List.length_append, List.length_cons, List.length_nil]
      omega

/-- A value without quote and backslash is read as it stands. -/
theorem readValue_clean {v : List Char} (hquote : '"' ∉ v) (hslash : '\\' ∉ v) (rest : List Char) :
    readValue (v ++ '"' :: rest) = some (v, rest) := by
  induction v with
  | nil => rfl
  | cons c v ih =>
    have hc : c ≠ '"' := fun h => hquote (by simp [h])
    have hc' : c ≠ '\\' := fun h => hslash (by simp [h])
    have hv := ih (fun h => hquote (List.mem_cons_of_mem _ h))
      fun h => hslash (List.mem_cons_of_mem _ h)
    rw [List.cons_append, readValue.eq_5 _ _ hc (fun _ _ h => absurd h hc') (by simp [hc']), hv]
    rfl

/-- What is read of a value is no longer than its text, and as long only if nothing is escaped. -/
theorem readValue_length {s v rest : List Char} (h : readValue s = some (v, rest)) :
    ∃ w, s = w ++ '"' :: rest ∧ v.length ≤ w.length ∧
      (v.length = w.length → w = v ∧ '"' ∉ v ∧ '\\' ∉ v) := by
  induction s using readValue.induct generalizing v with
  | case1 => cases h
  | case2 s =>
    obtain ⟨rfl, rfl⟩ := Prod.mk.inj (Option.some.inj h)
    exact ⟨[], by simp⟩
  | case3 c s ih =>
    rw [readValue, Option.bind_eq_some_iff] at h
    obtain ⟨d, -, h⟩ := h
    obtain ⟨r, hr, heq⟩ := Option.map_eq_some_iff.mp h
    obtain ⟨rfl, rfl⟩ := Prod.mk.inj heq
    obtain ⟨w, rfl, hle, -⟩ := ih hr
    -- an escape stands for one character and takes two
    refine ⟨'\\' :: c :: w, rfl, by simp only [List.length_cons]; omega, fun hlen => ?_⟩
    simp only [List.length_cons] at hlen
    omega
  | case4 => cases h
  | case5 c s hquote hslash hend ih =>
    have hslash' : c ≠ '\\' := by
      rintro rfl
      cases s with
      | nil => exact hend rfl rfl
      | cons d s => exact hslash d s rfl rfl
    rw [readValue.eq_5 _ _ hquote hslash hend] at h
    obtain ⟨r, hr, heq⟩ := Option.map_eq_some_iff.mp h
    obtain ⟨rfl, rfl⟩ := Prod.mk.inj heq
    obtain ⟨w, rfl, hle, htight⟩ := ih hr
    refine ⟨c :: w, rfl, by simp only [List.length_cons]; omega, fun hlen => ?_⟩
    obtain ⟨rfl, hq, hs⟩ := htight (by simpa using hlen)
    simp [hq, hs, Ne.symm hquote, Ne.symm hslash']

/-- A label that needs no escape is read as it is written. -/
theorem readLabel_clean {label : List Char × List Char} (hname : isLabelName label.1 = true)
    (hvalue : CleanValue label.2) (rest : List Char) :
    readLabel (labelItem label ++ rest) = some (label, rest) := by
  obtain ⟨hne, hall⟩ := all_of_isLabelName hname
  have hskip : skipBlanks (labelItem label ++ rest) =
      label.1 ++ '=' :: '"' :: (label.2 ++ '"' :: rest) := by
    rw [labelItem, List.append_assoc, skipBlanks_append hne fun c hc =>
      isBlank_of_isLabelChar (hall c hc)]
    simp
  obtain ⟨htake, hdrop⟩ :=
    takeWhile_append_cons hall (c := '=') (by decide) ('"' :: (label.2 ++ '"' :: rest))
  rw [readLabel, hskip, htake, hdrop, if_pos hname, expect_cons (by decide), Option.bind_some,
    expect_cons (by decide), Option.bind_some, readValue_clean hvalue.1 hvalue.2.1]
  rfl

theorem expect_labelItem {c : Char} (hc : isLabelChar c = false) {label : List Char × List Char}
    (hname : isLabelName label.1 = true) (rest : List Char) :
    expect c (labelItem label ++ rest) = none := by
  obtain ⟨hne, hall⟩ := all_of_isLabelName hname
  obtain ⟨d, name, hlabel⟩ := List.exists_cons_of_ne_nil hne
  have hd : isLabelChar d = true := hall d (by simp [hlabel])
  rw [labelItem, hlabel, List.cons_append, List.cons_append]
  refine expect_ne (isBlank_of_isLabelChar hd) ?_ _
  rintro rfl
  rw [hc] at hd
  cases hd

/-- Labels that need no escape are read as they are written. -/
theorem readLabels_clean {labels : Labels} (hne : labels ≠ [])
    (hnames : ∀ l ∈ labels, isLabelName l.1 = true) (hvalues : ∀ l ∈ labels, CleanValue l.2)
    {fuel : ℕ} (hfuel : labels.length ≤ fuel) (rest : List Char) :
    readLabels fuel (labelText labels ++ '}' :: rest) = some (labels, rest) := by
  induction labels generalizing fuel with
  | nil => exact absurd rfl hne
  | cons label labels ih =>
    obtain ⟨hname, hnames⟩ := List.forall_mem_cons.mp hnames
    obtain ⟨hvalue, hvalues⟩ := List.forall_mem_cons.mp hvalues
    obtain ⟨fuel, rfl⟩ := Nat.exists_eq_add_one_of_ne_zero
      (show fuel ≠ 0 by rw [List.length_cons] at hfuel; omega)
    rw [List.length_cons] at hfuel
    cases labels with
    | nil =>
      have htext : labelText [label] = labelItem label := by simp [labelText]
      rw [readLabels, htext, expect_labelItem (by decide) hname, readLabel_clean hname hvalue]
      simp only [Option.bind_some]
      rw [expect_cons (by decide)]
    | cons label' labels =>
      rw [labelText_cons _ (by simp), List.append_assoc, List.cons_append, readLabels,
        expect_labelItem (by decide) hname, readLabel_clean hname hvalue]
      simp only [Option.bind_some]
      rw [expect_ne (by decide) (by decide), expect_cons (by decide)]
      simp only [Option.bind_some]
      rw [ih (by simp) hnames hvalues (by omega)]
      rfl

/-- What a label is read from, and when it is all of it. -/
theorem readLabel_length {s rest : List Char} {label : List Char × List Char}
    (h : readLabel s = some (label, rest)) : isLabelName label.1 = true ∧ ∃ w, s = w ++ rest ∧
      label.1.length + label.2.length + 3 ≤ w.length ∧
      (label.1.length + label.2.length + 3 = w.length → w = labelItem label ∧
        '"' ∉ label.2 ∧ '\\' ∉ label.2) := by
  unfold readLabel at h
  obtain ⟨hname, h⟩ := Option.ite_none_right_eq_some.mp h
  obtain ⟨s₁, h₁, h⟩ := Option.bind_eq_some_iff.mp h
  obtain ⟨s₂, h₂, h⟩ := Option.bind_eq_some_iff.mp h
  obtain ⟨r, hr, heq⟩ := Option.map_eq_some_iff.mp h
  obtain ⟨rfl, rfl⟩ := Prod.mk.inj heq
  obtain ⟨b₁, hb₁, -⟩ := expect_eq_some h₁
  obtain ⟨b₂, rfl, -⟩ := expect_eq_some h₂
  obtain ⟨w, rfl, hle, htight⟩ := readValue_length hr
  have hs : s = s.takeWhile isBlank ++ ((skipBlanks s).takeWhile isLabelChar ++
      (b₁ ++ '=' :: (b₂ ++ '"' :: (w ++ '"' :: r.2)))) := by
    rw [← hb₁, List.takeWhile_append_dropWhile]
    exact List.takeWhile_append_dropWhile.symm
  refine ⟨hname, s.takeWhile isBlank ++ ((skipBlanks s).takeWhile isLabelChar ++
    (b₁ ++ '=' :: (b₂ ++ '"' :: (w ++ ['"'])))), ?_, ?_, fun hlen => ?_⟩
  · refine hs.trans ?_
    simp
  · simp only [List.length_append, List.length_cons, List.length_nil]
    omega
  · simp only [List.length_append, List.length_cons, List.length_nil] at hlen
    have h₀ := List.eq_nil_of_length_eq_zero (show (s.takeWhile isBlank).length = 0 by omega)
    obtain rfl := List.eq_nil_of_length_eq_zero (show b₁.length = 0 by omega)
    obtain rfl := List.eq_nil_of_length_eq_zero (show b₂.length = 0 by omega)
    obtain ⟨rfl, hquote, hslash⟩ := htight (by omega)
    exact ⟨by simp [h₀, labelItem], hquote, hslash⟩

/-- What labels are read from, and when it is all of them. -/
theorem readLabels_length {fuel : ℕ} {s rest : List Char} {labels : Labels}
    (h : readLabels fuel s = some (labels, rest)) :
    (∀ l ∈ labels, isLabelName l.1 = true) ∧ ∃ w, s = w ++ '}' :: rest ∧
      labelSize labels ≤ w.length + 1 ∧ (labelSize labels = w.length + 1 →
        w = labelText labels ∧ ∀ l ∈ labels, '"' ∉ l.2 ∧ '\\' ∉ l.2) := by
  induction fuel generalizing s labels with
  | zero => cases h
  | succ fuel ih =>
    rw [readLabels] at h
    split at h
    · next rest' hbrace =>
      obtain ⟨rfl, rfl⟩ := Prod.mk.inj (Option.some.inj h)
      obtain ⟨b, rfl, -⟩ := expect_eq_some hbrace
      refine ⟨by simp, b, rfl, by simp [labelSize], fun hlen => ?_⟩
      simp [labelSize] at hlen
    · obtain ⟨⟨label, s'⟩, hlabel, hrest⟩ := Option.bind_eq_some_iff.mp h
      clear h
      obtain ⟨hname, w, rfl, hle, htight⟩ := readLabel_length hlabel
      simp only at hrest
      split at hrest
      · next rest' hbrace =>
        obtain ⟨rfl, rfl⟩ := Prod.mk.inj (Option.some.inj hrest)
        obtain ⟨b, rfl, -⟩ := expect_eq_some hbrace
        refine ⟨by simpa using hname, w ++ b, by simp, ?_, fun hlen => ?_⟩
        · simp only [labelSize, List.map_cons, List.map_nil, List.sum_cons, List.sum_nil,
            List.length_append]
          omega
        · simp only [labelSize, List.map_cons, List.map_nil, List.sum_cons, List.sum_nil,
            List.length_append] at hlen
          obtain rfl := List.eq_nil_of_length_eq_zero (show b.length = 0 by omega)
          obtain ⟨rfl, hclean⟩ := htight (by omega)
          exact ⟨by simp [labelText], by simpa using hclean⟩
      · obtain ⟨s'', hcomma, hmore⟩ := Option.bind_eq_some_iff.mp hrest
        obtain ⟨⟨labels', rest'⟩, hlabels, heq⟩ := Option.map_eq_some_iff.mp hmore
        obtain ⟨rfl, rfl⟩ := Prod.mk.inj heq
        obtain ⟨b, rfl, -⟩ := expect_eq_some hcomma
        obtain ⟨hnames, w', rfl, hle', htight'⟩ := ih hlabels
        refine ⟨List.forall_mem_cons.mpr ⟨hname, hnames⟩, w ++ (b ++ ',' :: w'), by simp, ?_,
          fun hlen => ?_⟩
        · simp only [labelSize, List.map_cons, List.sum_cons, List.length_append,
            List.length_cons] at hle' ⊢
          omega
        · simp only [labelSize, List.map_cons, List.sum_cons, List.length_append,
            List.length_cons] at hlen hle' htight'
          obtain rfl := List.eq_nil_of_length_eq_zero (show b.length = 0 by omega)
          obtain ⟨rfl, hclean⟩ := htight (by omega)
          obtain ⟨rfl, hclean'⟩ := htight' (by omega)
          have hne : labels' ≠ [] := by
            rintro rfl
            simp only [List.map_nil, List.sum_nil] at hle' hlen
            omega
          exact ⟨by rw [labelText_cons _ hne]; rfl, List.forall_mem_cons.mpr ⟨hclean, hclean'⟩⟩

end Labels

end Prometheus
