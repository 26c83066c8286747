import Aerosuite.Library.Text

/-! Texts that are written in lines of words: a blank is white space within a line, words are
separated by blanks, and each line ends with a line feed. -/

namespace Text

/-- White space that does not end a line. -/
abbrev Blank := { c : Char // isWhitespace c = true ∧ c ≠ '\n' }

/-- A word: characters without white space. -/
abbrev Word := { w : List Char // w ≠ [] ∧ ∀ c ∈ w, isWhitespace c = false }

def blanks (bs : List Blank) : List Char := bs.map (·.1)

theorem isWhitespace_of_mem_blanks {bs : List Blank} {c : Char} (h : c ∈ blanks bs) :
    isWhitespace c = true := by
  obtain ⟨b, -, rfl⟩ := List.mem_map.mp h
  exact b.2.1

theorem not_newline_of_mem_blanks {bs : List Blank} : '\n' ∉ blanks bs := fun h => by
  obtain ⟨b, -, hb⟩ := List.mem_map.mp h
  exact b.2.2 hb

/-- A word whose characters are given. -/
def plainWord (w : List Char) (h : w ≠ [] ∧ (w.all fun c => !isWhitespace c) = true) : Word :=
  ⟨w, h.1, fun c hc => by simpa using List.all_eq_true.mp h.2 c hc⟩

theorem Word.not_newline (w : Word) : '\n' ∉ w.1 := fun h => by
  have hspace := w.2.2 _ h
  simp [isWhitespace] at hspace

section Words

theorem splitWhitespace_append_cons {c : Char} (hc : isWhitespace c = true) (u v : List Char) :
    splitWhitespace (u ++ c :: v) = splitWhitespace u ++ splitWhitespace v := by
  rw [splitWhitespace, List.splitOnP_append_cons _ _ hc, List.filter_append]
  rfl

theorem splitWhitespace_word (w : Word) : splitWhitespace w = [w.1] := by
  rw [splitWhitespace, List.splitOnP_eq_singleton w.2.2]
  simp [w.2.1]

theorem splitWhitespace_blanks_append (bs : List Blank) (s : List Char) :
    splitWhitespace (blanks bs ++ s) = splitWhitespace s := by
  induction bs with
  | nil => rfl
  | cons b bs ih =>
    have hcons := splitWhitespace_append_cons b.2.1 [] (blanks bs ++ s)
    rw [ih] at hcons
    exact hcons

theorem splitWhitespace_append_blanks (s : List Char) (bs : List Blank) :
    splitWhitespace (s ++ blanks bs) = splitWhitespace s := by
  cases bs with
  | nil => rw [show blanks [] = [] from rfl, List.append_nil]
  | cons b bs =>
    have hrest : splitWhitespace (blanks bs) = [] := by
      have hblanks := splitWhitespace_blanks_append bs []
      rw [List.append_nil] at hblanks
      rw [hblanks]
      rfl
    have hcons := splitWhitespace_append_cons b.2.1 s (blanks bs)
    rw [hrest, List.append_nil] at hcons
    exact hcons

/-- A word and the words after it, each after a blank and any more. -/
def words : Word → List ((Blank × List Blank) × Word) → List Char
  | w, [] => w
  | w, (gap, w') :: rest => w ++ (gap.1.1 :: (blanks gap.2 ++ words w' rest))

theorem splitWhitespace_words (w : Word) (rest : List ((Blank × List Blank) × Word)) :
    splitWhitespace (words w rest) = w.1 :: rest.map fun p => p.2.1 := by
  induction rest generalizing w with
  | nil => exact splitWhitespace_word w
  | cons p rest ih =>
    obtain ⟨⟨b, bs⟩, w'⟩ := p
    rw [words, splitWhitespace_append_cons b.2.1, splitWhitespace_word,
      splitWhitespace_blanks_append, ih]
    rfl

theorem words_head (w : Word) (rest : List ((Blank × List Blank) × Word)) :
    ∃ s, words w rest = w.1 ++ s := by
  cases rest with
  | nil => exact ⟨[], by simp [words]⟩
  | cons p rest => exact ⟨_, rfl⟩

theorem words_last (w : Word) (rest : List ((Blank × List Blank) × Word)) :
    ∃ s, ∃ w' : Word, words w rest = s ++ w'.1 := by
  induction rest generalizing w with
  | nil => exact ⟨[], w, rfl⟩
  | cons p rest ih =>
    obtain ⟨s, w', h⟩ := ih p.2
    exact ⟨w ++ (p.1.1.1 :: (blanks p.1.2 ++ s)), w', by simp [words, h]⟩

theorem not_newline_words (w : Word) (rest : List ((Blank × List Blank) × Word)) :
    '\n' ∉ words w rest := by
  induction rest generalizing w with
  | nil => exact w.not_newline
  | cons p rest ih =>
    obtain ⟨⟨b, bs⟩, w'⟩ := p
    have hb : '\n' ≠ b.1 := b.2.2.symm
    simp [words, w.not_newline, hb, not_newline_of_mem_blanks, ih w']

end Words

section Trim

theorem trimStart_append {l s : List Char} (hl : ∀ c ∈ l, isWhitespace c = true) :
    trimStart (l ++ s) = trimStart s := List.dropWhile_append_of_pos hl

theorem trimStart_of_head {s : List Char} (h : ∀ c ∈ s.head?, isWhitespace c = false) :
    trimStart s = s := by
  cases s with
  | nil => rfl
  | cons c s =>
    have hc := h c rfl
    rw [trimStart, List.dropWhile_cons_of_neg (by simp [hc])]

/-- White space around a text that has none at its ends is all that is trimmed. -/
theorem trim_append {l s r : List Char} (hl : ∀ c ∈ l, isWhitespace c = true)
    (hr : ∀ c ∈ r, isWhitespace c = true) (hhead : ∀ c ∈ s.head?, isWhitespace c = false)
    (hlast : ∀ c ∈ s.getLast?, isWhitespace c = false) (hne : s ≠ []) :
    trim (l ++ (s ++ r)) = s := by
  have hstart : trimStart (l ++ (s ++ r)) = s ++ r := by
    rw [trimStart_append hl, trimStart_of_head]
    rwa [List.head?_append_of_ne_nil s hne]
  have hend : trimStart (s ++ r).reverse = s.reverse := by
    rw [List.reverse_append, trimStart_append fun c hc => hr c (List.mem_reverse.mp hc),
      trimStart_of_head]
    rwa [List.head?_reverse]
  rw [trim, hstart, hend, List.reverse_reverse]

end Trim

section Lines

theorem trim_append_singleton {c : Char} (hc : isWhitespace c = true) (s : List Char) :
    trim (s ++ [c]) = trim s := by
  have hend : ∀ t : List Char, trimStart (t ++ [c]).reverse = trimStart t.reverse := fun t => by
    rw [List.reverse_append]
    exact trimStart_append (by simpa using hc)
  have hstart : (s ++ [c]).dropWhile isWhitespace = _ := List.dropWhile_append
  by_cases hs : (s.dropWhile isWhitespace).isEmpty
  · rw [if_pos hs] at hstart
    simp [trim, trimStart, hstart, hc, List.isEmpty_iff.mp hs]
  · rw [if_neg hs] at hstart
    have hkeep : trimStart (s ++ [c]) = trimStart s ++ [c] := hstart
    rw [trim, trim, hkeep, hend]

/-- The carriage return that `lines` takes from the end of a line is white space. -/
theorem trim_stripSuffix (line : List Char) :
    trim ((stripSuffix ['\r'] line).getD line) = trim line := by
  cases h : stripSuffix ['\r'] line with
  | none => rfl
  | some s =>
    obtain rfl := stripSuffix_eq_some.mp h
    exact (trim_append_singleton (show isWhitespace '\r' = true by decide) s).symm

/-- What `lines` takes from the blanks after a word is one of them. -/
theorem stripSuffix_blanks (s : List Char) (w : Word) (trail : List Blank) :
    ∃ trail' : List Blank, (stripSuffix ['\r'] (s ++ (w.1 ++ blanks trail))).getD
      (s ++ (w.1 ++ blanks trail)) = s ++ (w.1 ++ blanks trail') := by
  cases h : stripSuffix ['\r'] (s ++ (w.1 ++ blanks trail)) with
  | none => exact ⟨trail, rfl⟩
  | some t =>
    have heq := stripSuffix_eq_some.mp h
    rcases List.eq_nil_or_concat trail with rfl | ⟨trail', b, rfl⟩
    · have hlast : '\r' ∈ w.1.getLast? := by
        have hend := congrArg List.getLast? heq
        rw [show blanks [] = [] from rfl, List.append_nil,
          List.getLast?_append_of_ne_nil _ w.2.1, List.getLast?_concat] at hend
        exact hend
      have hspace := w.2.2 _ (List.mem_of_mem_getLast? hlast)
      simp [isWhitespace] at hspace
    · refine ⟨trail', ?_⟩
      have hcat : (s ++ (w.1 ++ blanks trail')) ++ [b.1] = t ++ ['\r'] := by
        rw [← heq]
        simp [blanks]
      exact (List.append_inj_left' hcat rfl).symm

theorem lines_nil : lines [] = [] := by decide

/-- A text without line feed, and then a line feed. -/
theorem lines_cons {line : List Char} (h : '\n' ∉ line) (s : List Char) :
    lines (line ++ '\n' :: s) = (stripSuffix ['\r'] line).getD line :: lines s := by
  have hsplit := List.splitOn_append_cons_self_of_not_mem h s
  obtain ⟨piece, pieces, hpieces⟩ :=
    List.exists_cons_of_ne_nil (List.splitOn_ne_nil '\n' s)
  simp only [lines, hsplit, hpieces, List.dropLast_cons_cons, List.map_cons,
    List.getLast?_cons_cons,
    List.cons_append]

/-- The text of a list of lines. -/
def unlines (ls : List (List Char)) : List Char := ls.flatMap fun line => line ++ ['\n']

theorem lines_unlines {ls : List (List Char)} (h : ∀ line ∈ ls, '\n' ∉ line) :
    lines (unlines ls) = ls.map fun line => (stripSuffix ['\r'] line).getD line := by
  induction ls with
  | nil => exact lines_nil
  | cons line ls ih =>
    have hcons := lines_cons (h line List.mem_cons_self) (unlines ls)
    rw [ih fun l hl => h l (List.mem_cons_of_mem _ hl)] at hcons
    simpa [unlines] using hcons

end Lines

end Text
