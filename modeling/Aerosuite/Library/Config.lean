import Aerosuite.Library.Lines

/-! Configuration files in the syntax of keepalived: a line is a directive of some words, a comment
goes from a mark to the end of its line, and a directive that ends with a brace opens a block. -/

namespace Config

open Text

abbrev Directive := List (List Char)

def isMark (c : Char) : Bool := c == '#' || c == '!'

/-- The words of a line before a comment. -/
def directive (line : List Char) : Directive := splitWhitespace (line.takeWhile fun c => !isMark c)

def directives (text : List Char) : List Directive := (text.splitOn '\n').map directive

/-- The arguments of a directive that opens a block of a kind. -/
def openArgs (kind : List Char) (d : Directive) : Option (List (List Char)) :=
  if d.head? = some kind ∧ d.getLast? = some ['{'] then some d.tail.dropLast else none

/-- The directives up to the brace that closes a block, inside of some more blocks. -/
def blockBody : ℕ → List Directive → List Directive
  | _, [] => []
  | depth, d :: ds =>
    if d.getLast? = some ['{'] then d :: blockBody (depth + 1) ds
    else if d = [['}']] then
      match depth with
      | 0 => []
      | depth + 1 => d :: blockBody depth ds
    else d :: blockBody depth ds

/-- The blocks of a kind, with their arguments and what they hold. -/
def blocks (kind : List Char) : List Directive → List (List (List Char) × List Directive)
  | [] => []
  | d :: ds =>
    ((openArgs kind d).map fun args => (args, blockBody 0 ds)).toList ++ blocks kind ds

section Blocks

variable {kind : List Char}

theorem openArgs_eq_none {d : Directive} (h : d.head? ≠ some kind) : openArgs kind d = none :=
  if_neg fun hopen => h hopen.1

theorem blocks_append {ds : List Directive} (h : ∀ d ∈ ds, openArgs kind d = none)
    (rest : List Directive) : blocks kind (ds ++ rest) = blocks kind rest := by
  induction ds with
  | nil => rfl
  | cons d ds ih =>
    rw [List.cons_append, blocks, h d List.mem_cons_self,
      ih fun d' hd' => h d' (List.mem_cons_of_mem _ hd')]
    rfl

/-- Texts in a row that each have one block, and none of the kind inside of it. -/
theorem blocks_flatMap {α : Type} {f : α → List Directive}
    {block : α → List (List Char) × List Directive}
    (h : ∀ a rest, blocks kind (f a ++ rest) = block a :: blocks kind rest) (as : List α)
    (rest : List Directive) :
    blocks kind (as.flatMap f ++ rest) = as.map block ++ blocks kind rest := by
  induction as with
  | nil => rfl
  | cons a as ih =>
    rw [List.flatMap_cons, List.append_assoc, h, ih, List.map_cons, List.cons_append]

end Blocks

section Lines

theorem directives_append {line : List Char} (h : '\n' ∉ line) (text : List Char) :
    directives (line ++ '\n' :: text) = directive line :: directives text := by
  rw [directives, List.splitOn_append_cons_self_of_not_mem h, List.map_cons]
  rfl

theorem directives_unlines {ls : List (List Char)} (h : ∀ line ∈ ls, '\n' ∉ line)
    (text : List Char) : directives (unlines ls ++ text) = ls.map directive ++ directives text := by
  induction ls with
  | nil => rfl
  | cons line ls ih =>
    have hcons := directives_append (h line List.mem_cons_self) (unlines ls ++ text)
    rw [ih fun l hl => h l (List.mem_cons_of_mem _ hl)] at hcons
    simpa [unlines] using hcons

/-- A line that begins with a mark is a comment. -/
theorem directive_comment {c : Char} (hc : isMark c = true) (s : List Char) :
    directive (c :: s) = [] := by
  rw [directive, List.takeWhile_cons_of_neg (by simp [hc])]
  rfl

/-- A line without comment. -/
theorem directive_plain {line : List Char} (h : ∀ c ∈ line, isMark c = false) :
    directive line = splitWhitespace line := by
  rw [directive, List.takeWhile_eq_self_iff.mpr (by simpa using h)]

/-- Words that are neither blank nor a comment. -/
def Plain (w : List Char) : Prop := w ≠ [] ∧ ∀ c ∈ w, isWhitespace c = false ∧ isMark c = false

instance (w : List Char) : Decidable (Plain w) :=
  decidable_of_iff (w ≠ [] ∧ (w.all fun c => !isWhitespace c && !isMark c) = true) (by simp [Plain])

theorem splitWhitespace_intercalate {ws : List (List Char)} (h : ∀ w ∈ ws, Plain w) :
    splitWhitespace ([' '].intercalate ws) = ws := by
  induction ws with
  | nil => rfl
  | cons w ws ih =>
    obtain ⟨hne, hplain⟩ := h w List.mem_cons_self
    have hword := splitWhitespace_word ⟨w, hne, fun c hc => (hplain c hc).1⟩
    cases ws with
    | nil => simpa using hword
    | cons w' ws =>
      rw [List.intercalate_cons_cons, List.append_assoc, List.singleton_append,
        splitWhitespace_append_cons (by decide), ih fun v hv => h v (List.mem_cons_of_mem _ hv)]
      exact congrArg (· ++ w' :: ws) hword

theorem mem_intercalate {ws : List (List Char)} {c : Char} (h : c ∈ [' '].intercalate ws) :
    c = ' ' ∨ ∃ w ∈ ws, c ∈ w := by
  induction ws with
  | nil => cases h
  | cons w ws ih =>
    cases ws with
    | nil => exact .inr ⟨w, by simp, by simpa using h⟩
    | cons w' ws =>
      rw [List.intercalate_cons_cons, List.append_assoc, List.singleton_append, List.mem_append,
        List.mem_cons] at h
      rcases h with h | rfl | h
      · exact .inr ⟨w, List.mem_cons_self, h⟩
      · exact .inl rfl
      · rcases ih h with rfl | ⟨v, hv, hc⟩
        · exact .inl rfl
        · exact .inr ⟨v, List.mem_cons_of_mem _ hv, hc⟩

theorem replicate_space (n : ℕ) :
    List.replicate n ' ' = blanks (List.replicate n ⟨' ', by decide⟩) := by
  simp [blanks]

/-- A line of plain words, each after one space. -/
def spaced (indent : ℕ) (ws : List (List Char)) : List Char :=
  List.replicate indent ' ' ++ [' '].intercalate ws

theorem not_newline_spaced (indent : ℕ) {ws : List (List Char)} (h : ∀ w ∈ ws, Plain w) :
    '\n' ∉ spaced indent ws := by
  intro hmem
  rcases List.mem_append.mp hmem with hspace | hmem
  · exact absurd (List.eq_of_mem_replicate hspace) (by decide)
  · rcases mem_intercalate hmem with hspace | ⟨w, hw, hc⟩
    · exact absurd hspace (by decide)
    · exact absurd ((h w hw).2 _ hc).1 (by decide)

theorem directive_spaced (indent : ℕ) {ws : List (List Char)} (h : ∀ w ∈ ws, Plain w) :
    directive (spaced indent ws) = ws := by
  have hmark : ∀ c ∈ spaced indent ws, isMark c = false := by
    intro c hc
    rcases List.mem_append.mp hc with hspace | hc
    · rw [List.eq_of_mem_replicate hspace]
      rfl
    · rcases mem_intercalate hc with rfl | ⟨w, hw, hc⟩
      · rfl
      · exact ((h w hw).2 c hc).2
  rw [directive_plain hmark, spaced, replicate_space, splitWhitespace_blanks_append,
    splitWhitespace_intercalate h]

/-- The first word of a line, whatever follows it. -/
theorem directive_head (indent : ℕ) {w : List Char} (hw : Plain w) (s : List Char) :
    (directive (List.replicate indent ' ' ++ (w ++ ' ' :: s))).head? = some w := by
  have htake : (List.replicate indent ' ' ++ (w ++ ' ' :: s)).takeWhile (fun c => !isMark c) =
      List.replicate indent ' ' ++ (w ++ ' ' :: s.takeWhile fun c => !isMark c) := by
    rw [List.takeWhile_append_of_pos fun c hc => by rw [List.eq_of_mem_replicate hc]; rfl,
      List.takeWhile_append_of_pos fun c hc => by rw [(hw.2 c hc).2]; rfl,
      List.takeWhile_cons_of_pos rfl]
  rw [directive, htake, replicate_space, splitWhitespace_blanks_append,
    splitWhitespace_append_cons (by decide),
    splitWhitespace_word ⟨w, hw.1, fun c hc => (hw.2 c hc).1⟩]
  rfl

end Lines

end Config
