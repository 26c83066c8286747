import Aerosuite.Library.Prometheus

/-! Lines of the text format that are written without any escape, and when they are read as what
they were written for. -/

namespace Prometheus

variable {F : Type} [Number F]

/-- A number and how it is written. -/
abbrev NumberText (F : Type) [Number F] := { p : List Char × F //
  Number.parse p.1 = some p.2 ∧ p.1 ≠ [] ∧
    (p.1.all fun c => c.isAlphanum || c == '.' || c == '-') = true }

/-- What a line is written for. -/
inductive Entry (F : Type) [Number F] where
  | help (metric doc : List Char)
  | type (metric : List Char) (kind : MetricType)
  | sample (metric : List Char) (labels : Labels) (number : NumberText F)

/-- Labels in braces, if there are any. -/
def labelBlock (labels : Labels) : List Char :=
  if labels = [] then [] else '{' :: (labelText labels ++ ['}'])

/-- The text of an entry, in which nothing is escaped. -/
def Entry.text : Entry F → List Char
  | .help metric doc => "# HELP ".toList ++ (metric ++ ' ' :: doc)
  | .type metric kind => "# TYPE ".toList ++ (metric ++ ' ' :: kind.text.toList)
  | .sample metric labels number => metric ++ (labelBlock labels ++ ' ' :: number.1.1)

/-- The line that is meant. -/
def Entry.line : Entry F → Line F
  | .help metric doc => .help metric doc
  | .type metric kind => .type metric kind
  | .sample metric labels number => .sample metric labels number.1.2

/-- The names of an entry are names of the format. -/
def Entry.Named : Entry F → Prop
  | .help metric _ | .type metric _ => isMetricName metric = true
  | .sample metric labels _ => isMetricName metric = true ∧ ∀ l ∈ labels, isLabelName l.1 = true

/-- A line that says nothing: a blank one, or a comment that is neither a help text nor a type. -/
def isComment (line : List Char) : Bool :=
  match skipBlanks line with
  | [] => true
  | '#' :: s =>
    let keyword := (skipBlanks s).takeWhile fun c => !isBlank c
    keyword != "HELP".toList && keyword != "TYPE".toList
  | _ => false

/-- A help text of which only the first line is read, and without an unknown escape. -/
def CleanDoc (doc : List Char) : Prop :=
  (unescapeDoc (doc.takeWhile (· != '\n'))).isSome ∧
    ∀ line ∈ (doc.splitOn '\n').tail, isComment line = true

/-- Labels that need no escape, no two of one name. -/
def CleanLabels (labels : Labels) : Prop :=
  (∀ l ∈ labels, CleanValue l.2) ∧ (labels.map Prod.fst).Nodup

instance : DecidablePred CleanDoc := fun _ => inferInstanceAs (Decidable (_ ∧ _))

instance : DecidablePred CleanLabels := fun labels =>
  inferInstanceAs (Decidable ((∀ l ∈ labels, '"' ∉ l.2 ∧ '\\' ∉ l.2 ∧ '\n' ∉ l.2) ∧ _))

/-- An entry that is read as it is meant. -/
def Entry.Clean : Entry F → Prop
  | .help _ doc => CleanDoc doc
  | .type .. => True
  | .sample _ labels _ => CleanLabels labels

/-- The lines that an entry is read as. -/
def Entry.read (e : Entry F) : List (Line F) := (e.text.splitOn '\n').filterMap (readLine F)

section Splitting

theorem splitOn_eq_takeWhile (s : List Char) :
    s.splitOn '\n' = s.takeWhile (· != '\n') :: (s.splitOn '\n').tail := by
  induction s with
  | nil => rfl
  | cons c s ih =>
    rw [List.splitOn_cons_eq_if_modifyHead]
    by_cases hc : c = '\n'
    · subst hc
      rfl
    · rw [if_neg (by simpa using hc), ih]
      simp [hc]

theorem splitOn_append {p : List Char} (h : '\n' ∉ p) (s : List Char) :
    (p ++ s).splitOn '\n' = (p ++ s.takeWhile (· != '\n')) :: (s.splitOn '\n').tail := by
  induction p with
  | nil => exact splitOn_eq_takeWhile s
  | cons c p ih =>
    obtain ⟨hc, hp⟩ := not_or.mp (fun hor => h (List.mem_cons.mpr hor))
    rw [List.cons_append, List.splitOn_cons_eq_if_modifyHead, if_neg (by simpa using Ne.symm hc),
      ih hp]
    rfl

/-- A text that is written in several writes of a line each. -/
theorem splitOn_unlines (texts : List (List Char)) :
    (Text.unlines texts).splitOn '\n' = (texts.flatMap fun t => t.splitOn '\n') ++ [[]] := by
  induction texts with
  | nil => rfl
  | cons t texts ih =>
    have hcons := List.splitOn_append_cons_self (a := '\n') t (Text.unlines texts)
    rw [ih] at hcons
    simpa [Text.unlines] using hcons

theorem textLines_unlines (texts : List (List Char)) :
    textLines (Text.unlines texts) = texts.flatMap fun t => t.splitOn '\n' := by
  rw [textLines, splitOn_unlines, List.dropLast_concat]

theorem readText_unlines (es : List (Entry F)) :
    readText F (Text.unlines (es.map Entry.text)) = es.flatMap Entry.read := by
  rw [readText, textLines_unlines, List.filterMap_flatMap, List.flatMap_map]
  rfl

end Splitting

section Tokens

theorem tokens_append_cons {c : Char} (hc : isBlank c = true) (u v : List Char) :
    tokens (u ++ c :: v) = tokens u ++ tokens v := by
  rw [tokens, List.splitOnP_append_cons _ _ hc, List.filter_append]
  rfl

theorem tokens_word {w : List Char} (hne : w ≠ []) (h : ∀ c ∈ w, isBlank c = false) :
    tokens w = [w] := by
  rw [tokens, List.splitOnP_eq_singleton h]
  simp [hne]

theorem not_blank_of_all {w : List Char} (h : (w.all fun c => !isBlank c) = true) :
    ∀ c ∈ w, isBlank c = false := fun c hc => by
  simpa using List.all_eq_true.mp h c hc

theorem takeWhile_word {w : List Char} (h : ∀ c ∈ w, isBlank c = false) (s : List Char) :
    (w ++ ' ' :: s).takeWhile (fun c => !isBlank c) = w ∧
      (w ++ ' ' :: s).dropWhile (fun c => !isBlank c) = ' ' :: s :=
  takeWhile_append_cons (fun c hc => by rw [h c hc]; rfl) (by decide) s

end Tokens

section Comments

theorem readSample_ne_comment (s : List Char) : readSample s ≠ some (Line.comment : Line F) := by
  intro h
  rw [readSample] at h
  simp only [Option.ite_none_right_eq_some, Option.bind_eq_some_iff, Option.map_eq_some_iff] at h
  obtain ⟨-, r, -, -, v, -, hv⟩ := h
  cases hv

omit [Number F] in
theorem readComment_eq_comment (s : List Char) : readComment s = some (Line.comment : Line F) ↔
    ((skipBlanks s).takeWhile fun c => !isBlank c) ≠ "HELP".toList ∧
      ((skipBlanks s).takeWhile fun c => !isBlank c) ≠ "TYPE".toList := by
  rw [readComment]
  generalize (skipBlanks s).takeWhile (fun c => !isBlank c) = keyword
  generalize skipBlanks ((skipBlanks s).dropWhile fun c => !isBlank c) = rest
  by_cases hhelp : keyword = "HELP".toList
  · rw [if_pos hhelp]
    refine iff_of_false ?_ fun h => h.1 hhelp
    dsimp only
    split <;> simp
  by_cases htype : keyword = "TYPE".toList
  · rw [if_neg hhelp, if_pos htype]
    refine iff_of_false ?_ fun h => h.2 htype
    split
    · split <;> simp
    · simp
  · rw [if_neg hhelp, if_neg htype]
    exact iff_of_true rfl ⟨hhelp, htype⟩

theorem readLine_of_ne {line s : List Char} {c : Char} (h : skipBlanks line = c :: s)
    (hc : c ≠ '#') : readLine F line = readSample (c :: s) := by
  rw [readLine, h]
  split
  · next heq => cases heq
  · next heq => exact absurd (List.cons.inj heq).1 hc
  · rfl

theorem isComment_of_ne {line s : List Char} {c : Char} (h : skipBlanks line = c :: s)
    (hc : c ≠ '#') : isComment line = false := by
  rw [isComment, h]
  split
  · next heq => cases heq
  · next heq => exact absurd (List.cons.inj heq).1 hc
  · rfl

/-- The lines that say nothing are the comments. -/
theorem readLine_eq_comment (line : List Char) :
    readLine F line = some .comment ↔ isComment line = true := by
  cases hline : skipBlanks line with
  | nil => simp [readLine, isComment, hline]
  | cons c s =>
    by_cases hc : c = '#'
    · subst hc
      simp [readLine, isComment, hline, readComment_eq_comment]
    · simp [readLine_of_ne hline hc, isComment_of_ne hline hc, readSample_ne_comment]

end Comments

section Metadata

theorem skipBlanks_blank (s : List Char) : skipBlanks (' ' :: s) = skipBlanks s :=
  List.dropWhile_cons_of_pos (by decide)

theorem readLine_sharp (s : List Char) : readLine F ('#' :: ' ' :: s) = readComment s := by
  rw [readLine, skipBlanks_cons (by decide)]
  simp only
  rw [readComment, readComment, skipBlanks_blank]

theorem skipBlanks_metric {metric : List Char} (h : isMetricName metric = true) (s : List Char) :
    skipBlanks (' ' :: (metric ++ s)) = metric ++ s := by
  obtain ⟨hne, hall⟩ := all_of_isMetricName h
  rw [skipBlanks_blank, skipBlanks_append hne fun c hc => isBlank_of_isMetricChar (hall c hc)]

theorem readLine_help {metric : List Char} (h : isMetricName metric = true) (doc : List Char) :
    readLine F ("# HELP ".toList ++ (metric ++ ' ' :: doc)) =
      (unescapeDoc (skipBlanks doc)).map (.help metric) := by
  have hall := (all_of_isMetricName h).2
  obtain ⟨htake, hdrop⟩ :=
    takeWhile_word (fun c hc => isBlank_of_isMetricChar (hall c hc)) doc
  have hword := not_blank_of_all (w := "HELP".toList) (by decide)
  obtain ⟨hkey, hrest⟩ := takeWhile_word hword (metric ++ ' ' :: doc)
  have htext : "# HELP ".toList ++ (metric ++ ' ' :: doc) =
      '#' :: ' ' :: ("HELP".toList ++ ' ' :: (metric ++ ' ' :: doc)) := rfl
  rw [htext, readLine_sharp, readComment, skipBlanks_append (by decide) hword, hkey, hrest,
    skipBlanks_metric h, if_pos rfl]
  simp only [htake, hdrop, if_pos h]
  rfl

theorem readLine_type {metric : List Char} (h : isMetricName metric = true) (kind : MetricType) :
    readLine F ("# TYPE ".toList ++ (metric ++ ' ' :: kind.text.toList)) =
      some (.type metric kind) := by
  obtain ⟨hne, hall⟩ := all_of_isMetricName h
  have hword := not_blank_of_all (w := "TYPE".toList) (by decide)
  obtain ⟨hkey, hrest⟩ := takeWhile_word hword (metric ++ ' ' :: kind.text.toList)
  have hkind : ∀ c ∈ kind.text.toList, isBlank c = false :=
    not_blank_of_all (by cases kind <;> decide)
  have htokens : tokens (metric ++ ' ' :: kind.text.toList) = [metric, kind.text.toList] := by
    rw [tokens_append_cons (by decide),
      tokens_word hne fun c hc => isBlank_of_isMetricChar (hall c hc),
      tokens_word (by cases kind <;> decide) hkind]
    rfl
  have htext : "# TYPE ".toList ++ (metric ++ ' ' :: kind.text.toList) =
      '#' :: ' ' :: ("TYPE".toList ++ ' ' :: (metric ++ ' ' :: kind.text.toList)) := rfl
  rw [htext, readLine_sharp, readComment, skipBlanks_append (by decide) hword, hkey, hrest,
    skipBlanks_metric h,
    if_neg (by decide), if_pos rfl, htokens]
  simp only [if_pos h]
  cases kind <;> rfl

/-- Blanks before a help text are no part of it. -/
theorem unescapeDoc_skipBlanks (s : List Char) :
    (unescapeDoc (skipBlanks s)).isSome = (unescapeDoc s).isSome := by
  induction s with
  | nil => rfl
  | cons c s ih =>
    by_cases hc : isBlank c = true
    · have hslash : c ≠ '\\' := by
        rintro rfl
        cases hc
      have hread : unescapeDoc (c :: s) = (unescapeDoc s).map (c :: ·) := by
        rw [unescapeDoc]
        all_goals simp [hslash]
      rw [show skipBlanks (c :: s) = skipBlanks s from List.dropWhile_cons_of_pos hc, ih, hread,
        Option.isSome_map]
    · rw [skipBlanks_cons (by simpa using hc)]

end Metadata

section Samples

theorem NumberText.plain (number : NumberText F) {c : Char} (h : c ∈ number.1.1) :
    isBlank c = false ∧ c ≠ '\n' ∧ c ≠ '}' := by
  have hc := List.all_eq_true.mp number.2.2.2 c h
  have hblank := isBlank_eq_false (p := fun c => c.isAlphanum || c == '.' || c == '-')
    (by decide) (by decide) hc
  refine ⟨hblank, ?_, ?_⟩
  · rintro rfl
    exact absurd hc (by decide)
  · rintro rfl
    exact absurd hc (by decide)

theorem readNumber_text (number : NumberText F) :
    readNumber (' ' :: number.1.1) = some number.1.2 := by
  have htokens : tokens (' ' :: number.1.1) = [number.1.1] := by
    have hsplit := tokens_append_cons (c := ' ') (by decide) [] number.1.1
    rwa [tokens_word number.2.2.1 fun c hc => (number.plain hc).1] at hsplit
  rw [readNumber, htokens]
  exact number.2.1

theorem takeWhile_metric {metric : List Char} (h : isMetricName metric = true) {c : Char}
    (hc : isMetricChar c = false) (s : List Char) :
    (metric ++ c :: s).takeWhile isMetricChar = metric ∧
      (metric ++ c :: s).dropWhile isMetricChar = c :: s :=
  takeWhile_append_cons (all_of_isMetricName h).2 hc s

theorem readLine_metric {metric : List Char} (h : isMetricName metric = true) (s : List Char) :
    readLine F (metric ++ s) = readSample (metric ++ s) := by
  obtain ⟨hne, hall⟩ := all_of_isMetricName h
  have hskip := skipBlanks_append hne (fun c hc => isBlank_of_isMetricChar (hall c hc)) s
  obtain ⟨c, metric, rfl⟩ := List.exists_cons_of_ne_nil hne
  refine readLine_of_ne hskip ?_
  rintro rfl
  exact absurd (hall '#' List.mem_cons_self) (by decide)

theorem readLine_bare {metric : List Char} (h : isMetricName metric = true)
    (number : NumberText F) :
    readLine F (metric ++ ' ' :: number.1.1) = some (.sample metric [] number.1.2) := by
  obtain ⟨htake, hdrop⟩ := takeWhile_metric h (c := ' ') (by decide) number.1.1
  have hbrace : expect '{' (' ' :: number.1.1) = none := by
    obtain ⟨c, s, hnumber⟩ := List.exists_cons_of_ne_nil number.2.2.1
    have hc : c ∈ number.1.1 := by simp [hnumber]
    have hbrace' : c ≠ '{' := by
      rintro rfl
      exact absurd (List.all_eq_true.mp number.2.2.2 _ hc) (by decide)
    rw [expect, skipBlanks_blank, ← expect, hnumber]
    exact expect_ne (number.plain hc).1 hbrace' s
  rw [readLine_metric h, readSample, htake, hdrop, if_pos h, hbrace]
  simp only [Option.bind_some, List.map_nil, List.nodup_nil, if_true, readNumber_text]
  rfl

theorem readLine_labelled {metric : List Char} (h : isMetricName metric = true) (s : List Char) :
    readLine F (metric ++ '{' :: s) = (readLabels (s.length + 1) s).bind fun (labels, rest) =>
      if (labels.map Prod.fst).Nodup then (readNumber rest).map (.sample metric labels)
      else none := by
  obtain ⟨htake, hdrop⟩ := takeWhile_metric h (c := '{') (by decide) s
  rw [readLine_metric h, readSample, htake, hdrop, if_pos h, expect_cons (by decide)]

end Samples

section LabelText

theorem labelText_singleton (label : List Char × List Char) :
    labelText [label] = labelItem label := List.intercalate_singleton

theorem labelText_cons_eq_flatMap (label : List Char × List Char) (labels : Labels) :
    labelText (label :: labels) =
      labelItem label ++ labels.flatMap fun l => ',' :: labelItem l := by
  induction labels generalizing label with
  | nil => rw [labelText_singleton, List.flatMap_nil, List.append_nil]
  | cons label' labels ih =>
    rw [labelText_cons _ (by simp), ih, List.flatMap_cons, List.cons_append]

/-- The text of labels has room for as many of them. -/
theorem length_le_labelText (labels : Labels) : labels.length ≤ (labelText labels).length + 1 := by
  cases labels with
  | nil => simp
  | cons label labels =>
    have hitems : labels.length ≤ (labels.flatMap fun l => ',' :: labelItem l).length := by
      rw [List.length_flatMap, ← List.length_map (f := fun l => (',' :: labelItem l).length)]
      refine List.length_le_sum_of_one_le _ fun n hn => ?_
      obtain ⟨l, -, rfl⟩ := List.mem_map.mp hn
      simp
    rw [labelText_cons_eq_flatMap, List.length_append, List.length_cons]
    omega

theorem mem_labelText {labels : Labels} {l : List Char × List Char} (h : l ∈ labels) {c : Char}
    (hc : c ∈ l.2) : c ∈ labelText labels := by
  have hitem : c ∈ labelItem l := by simp [labelItem, hc]
  cases labels with
  | nil => cases h
  | cons label labels =>
    rw [labelText_cons_eq_flatMap, List.mem_append, List.mem_flatMap]
    rcases List.mem_cons.mp h with rfl | h
    · exact Or.inl hitem
    · exact Or.inr ⟨l, h, List.mem_cons_of_mem _ hitem⟩

theorem of_mem_labelText {labels : Labels} {c : Char} (h : c ∈ labelText labels) :
    c = ',' ∨ ∃ l ∈ labels, c ∈ labelItem l := by
  cases labels with
  | nil => cases h
  | cons label labels =>
    rw [labelText_cons_eq_flatMap, List.mem_append, List.mem_flatMap] at h
    rcases h with h | ⟨l, hl, h⟩
    · exact Or.inr ⟨label, List.mem_cons_self, h⟩
    · rcases List.mem_cons.mp h with h | h
      · exact Or.inl h
      · exact Or.inr ⟨l, List.mem_cons_of_mem _ hl, h⟩

theorem of_mem_labelItem {label : List Char × List Char} {c : Char} (h : c ∈ labelItem label) :
    c = '=' ∨ c = '"' ∨ c ∈ label.1 ∨ c ∈ label.2 := by
  simp only [labelItem, List.mem_append, List.mem_cons, List.not_mem_nil, or_false] at h
  tauto

theorem not_mem_labelName {name : List Char} (h : isLabelName name = true) {c : Char}
    (hc : isLabelChar c = false) : c ∉ name := fun hmem => by
  rw [(all_of_isLabelName h).2 c hmem] at hc
  cases hc

/-- Two quotes stand around every value. -/
theorem count_quote_labelText {labels : Labels} (hnames : ∀ l ∈ labels, isLabelName l.1 = true) :
    (labelText labels).count '"' =
      2 * labels.length + (labels.map fun l => l.2.count '"').sum := by
  induction labels with
  | nil => rfl
  | cons label labels ih =>
    obtain ⟨hname, hnames⟩ := List.forall_mem_cons.mp hnames
    have hitem : (labelItem label).count '"' = 2 + label.2.count '"' := by
      have hzero := List.count_eq_zero.mpr (not_mem_labelName hname (c := '"') (by decide))
      simp only [labelItem, List.count_append, hzero, List.count_cons, List.count_nil]
      simp
      omega
    cases labels with
    | nil => simp [labelText_singleton, hitem]
    | cons label' labels =>
      rw [labelText_cons _ (by simp), List.count_append, hitem, List.count_cons, ih hnames]
      simp only [List.map_cons, List.sum_cons, List.length_cons]
      simp
      omega

/-- What is neither punctuation nor part of a name is part of a value. -/
theorem mem_value_of_mem_labelText {labels : Labels} (hnames : ∀ l ∈ labels, isLabelName l.1 = true)
    {c : Char} (hsep : c ∉ [',', '=', '"']) (hc : isLabelChar c = false)
    (h : c ∈ labelText labels) : ∃ l ∈ labels, c ∈ l.2 := by
  simp only [List.mem_cons, List.not_mem_nil, or_false, not_or] at hsep
  rcases of_mem_labelText h with h | ⟨l, hl, h⟩
  · exact absurd h hsep.1
  · rcases of_mem_labelItem h with h | h | hname | hvalue
    · exact absurd h hsep.2.1
    · exact absurd h hsep.2.2
    · exact absurd hname (not_mem_labelName (hnames l hl) hc)
    · exact ⟨l, hl, hvalue⟩

/-- Labels that need no escape are written as one line. -/
theorem not_newline_labelText {labels : Labels} (hnames : ∀ l ∈ labels, isLabelName l.1 = true)
    (hvalues : ∀ l ∈ labels, CleanValue l.2) : '\n' ∉ labelText labels := fun h => by
  obtain ⟨l, hl, hmem⟩ := mem_value_of_mem_labelText hnames (by decide) (by decide) h
  exact (hvalues l hl).2.2 hmem

/-- Labels that are written alike have as many quotes. -/
theorem count_of_labelText_eq {labels labels' : Labels} (h : labelText labels = labelText labels')
    (hnames : ∀ l ∈ labels, isLabelName l.1 = true)
    (hnames' : ∀ l ∈ labels', isLabelName l.1 = true)
    (hquote : ∀ l ∈ labels', '"' ∉ l.2) :
    2 * labels'.length = 2 * labels.length + (labels.map fun l => l.2.count '"').sum := by
  have hcount := congrArg (List.count '"') h
  have hzero : (labels'.map fun l => l.2.count '"').sum = 0 := by
    refine List.sum_eq_zero fun n hn => ?_
    obtain ⟨l, hl, rfl⟩ := List.mem_map.mp hn
    exact List.count_eq_zero.mpr (hquote l hl)
  rw [count_quote_labelText hnames, count_quote_labelText hnames', hzero] at hcount
  omega

/-- Labels that are written like labels without quote and backslash, on one line, and are as many,
need no escape either. -/
theorem clean_of_labelText_eq {labels labels' : Labels} (h : labelText labels = labelText labels')
    (hlength : labels'.length = labels.length) (hnames : ∀ l ∈ labels, isLabelName l.1 = true)
    (hnames' : ∀ l ∈ labels', isLabelName l.1 = true)
    (hvalues' : ∀ l ∈ labels', '"' ∉ l.2 ∧ '\\' ∉ l.2) (hline : '\n' ∉ labelText labels) :
    ∀ l ∈ labels, CleanValue l.2 := by
  have hcount := count_of_labelText_eq h hnames hnames' fun l hl => (hvalues' l hl).1
  intro l hl
  refine ⟨?_, fun hslash => ?_, fun hnewline => hline (mem_labelText hl hnewline)⟩
  · have hsum : (labels.map fun l => l.2.count '"').sum = 0 := by omega
    exact List.count_eq_zero.mp
      (List.sum_eq_zero_iff_forall_eq_nat.mp hsum _ (List.mem_map.mpr ⟨l, hl, rfl⟩))
  · have hmem := mem_labelText hl hslash
    rw [h] at hmem
    obtain ⟨l', hl', hslash'⟩ :=
      mem_value_of_mem_labelText hnames' (by decide) (by decide) hmem
    exact (hvalues' l' hl').2 hslash'

end LabelText

section Reading

omit [Number F] in
theorem not_newline_metric {metric : List Char} (h : isMetricName metric = true) :
    '\n' ∉ metric := fun hmem => absurd ((all_of_isMetricName h).2 '\n' hmem) (by decide)

theorem text_help (metric doc : List Char) : (Entry.help (F := F) metric doc).text =
    "# HELP ".toList ++ (metric ++ ' ' :: doc) := rfl

theorem text_type (metric : List Char) (kind : MetricType) :
    (Entry.type (F := F) metric kind).text =
      "# TYPE ".toList ++ (metric ++ ' ' :: kind.text.toList) := rfl

theorem text_sample (metric : List Char) (labels : Labels) (number : NumberText F) :
    (Entry.sample metric labels number).text =
      metric ++ (labelBlock labels ++ ' ' :: number.1.1) := rfl

theorem splitOn_help {metric : List Char} (h : isMetricName metric = true) (doc : List Char) :
    (Entry.help (F := F) metric doc).text.splitOn '\n' =
      ("# HELP ".toList ++ (metric ++ ' ' :: doc.takeWhile (· != '\n'))) ::
        (doc.splitOn '\n').tail := by
  have hline : '\n' ∉ "# HELP ".toList ++ (metric ++ [' ']) := by
    simp only [List.mem_append, not_or]
    exact ⟨by decide, not_newline_metric h, by decide⟩
  have htext : (Entry.help (F := F) metric doc).text =
      ("# HELP ".toList ++ (metric ++ [' '])) ++ doc := by
    rw [text_help, List.append_assoc, List.append_assoc]
    rfl
  rw [htext, splitOn_append hline, List.append_assoc, List.append_assoc]
  rfl

theorem splitOn_type {metric : List Char} (h : isMetricName metric = true) (kind : MetricType) :
    (Entry.type (F := F) metric kind).text.splitOn '\n' =
      [(Entry.type (F := F) metric kind).text] := by
  refine List.splitOn_eq_singleton ?_
  rw [text_type]
  simp only [List.mem_append, List.mem_cons, not_or]
  exact ⟨by decide, not_newline_metric h, by decide, by cases kind <;> decide⟩

theorem splitOn_bare {metric : List Char} (h : isMetricName metric = true)
    (number : NumberText F) :
    (Entry.sample metric [] number).text.splitOn '\n' = [metric ++ ' ' :: number.1.1] := by
  rw [text_sample]
  refine List.splitOn_eq_singleton ?_
  simp only [List.mem_append, List.mem_cons, not_or]
  exact ⟨not_newline_metric h, by simp [labelBlock], by decide,
    fun hmem => (number.plain hmem).2.1 rfl⟩

/-- What stands after the opening brace of a sample. -/
def afterBrace (labels : Labels) (number : NumberText F) : List Char :=
  labelText labels ++ '}' :: ' ' :: number.1.1

theorem text_labelled (metric : List Char) {labels : Labels} (hne : labels ≠ [])
    (number : NumberText F) :
    (Entry.sample metric labels number).text = metric ++ '{' :: afterBrace labels number := by
  rw [text_sample, labelBlock, if_neg hne, afterBrace, List.cons_append, List.append_assoc]
  rfl

theorem splitOn_labelled {metric : List Char} (h : isMetricName metric = true) {labels : Labels}
    (hne : labels ≠ []) (number : NumberText F) :
    (Entry.sample metric labels number).text.splitOn '\n' =
      (metric ++ '{' :: (afterBrace labels number).takeWhile (· != '\n')) ::
        ((afterBrace labels number).splitOn '\n').tail := by
  have hline : '\n' ∉ metric ++ ['{'] := by
    simp only [List.mem_append, not_or]
    exact ⟨not_newline_metric h, by decide⟩
  rw [text_labelled metric hne, List.append_cons, splitOn_append hline, ← List.append_cons]

theorem not_newline_afterBrace {labels : Labels} (hnames : ∀ l ∈ labels, isLabelName l.1 = true)
    (hclean : CleanLabels labels) (number : NumberText F) : '\n' ∉ afterBrace labels number := by
  simp only [afterBrace, List.mem_append, List.mem_cons, not_or]
  exact ⟨not_newline_labelText hnames hclean.1, by decide, by decide,
    fun hmem => (number.plain hmem).2.1 rfl⟩

theorem readLine_labelled_clean {metric : List Char} (h : isMetricName metric = true)
    {labels : Labels} (hne : labels ≠ []) (hnames : ∀ l ∈ labels, isLabelName l.1 = true)
    (hclean : CleanLabels labels) (number : NumberText F) :
    readLine F (metric ++ '{' :: afterBrace labels number) =
      some (.sample metric labels number.1.2) := by
  have hfuel : labels.length ≤ (afterBrace labels number).length + 1 := by
    have hle := length_le_labelText labels
    rw [afterBrace, List.length_append]
    omega
  have hread : readLabels ((afterBrace labels number).length + 1) (afterBrace labels number) =
      some (labels, ' ' :: number.1.1) := readLabels_clean hne hnames hclean.1 hfuel _
  rw [readLine_labelled h, hread]
  simp only [Option.bind_some, if_pos hclean.2, readNumber_text]
  rfl

/-- An entry without anything to escape is one line that is read as it is meant, a help text up to
what was escaped in it, and comments. -/
theorem Entry.splitOn_clean {e : Entry F} (hnamed : e.Named) (hclean : e.Clean) :
    ∃ first rest, e.text.splitOn '\n' = first :: rest ∧
      (∀ line ∈ rest, readLine F line = some .comment) ∧
      (readLine F first = some e.line ∨
        ∃ metric doc doc', e.line = .help metric doc ∧ readLine F first =
          some (.help metric doc')) := by
  cases e with
  | help metric doc =>
    refine ⟨_, _, splitOn_help hnamed doc,
      fun line hline => (readLine_eq_comment line).mpr (hclean.2 line hline), ?_⟩
    obtain ⟨doc', hdoc⟩ := Option.isSome_iff_exists.mp
      ((unescapeDoc_skipBlanks (doc.takeWhile (· != '\n'))).trans hclean.1)
    exact Or.inr ⟨metric, doc, doc', rfl, by rw [readLine_help hnamed, hdoc, Option.map_some]⟩
  | type metric kind =>
    exact ⟨_, _, splitOn_type hnamed kind, by simp, Or.inl (readLine_type hnamed kind)⟩
  | sample metric labels number =>
    obtain ⟨hmetric, hnames⟩ := hnamed
    by_cases hne : labels = []
    · subst hne
      exact ⟨_, _, splitOn_bare hmetric number, by simp, Or.inl (readLine_bare hmetric number)⟩
    have hline := not_newline_afterBrace hnames hclean number
    have htext : '\n' ∉ (Entry.sample metric labels number).text := by
      rw [text_labelled metric hne, List.mem_append, List.mem_cons, not_or, not_or]
      exact ⟨not_newline_metric hmetric, by decide, hline⟩
    refine ⟨_, _, List.splitOn_eq_singleton htext, by simp, Or.inl ?_⟩
    rw [text_labelled metric hne]
    exact readLine_labelled_clean hmetric hne hnames hclean number

end Reading

section Misreading

/-- What is known of labels that are read where others were written. -/
structure ReadFor (labels labels' : Labels) : Prop where
  size : labelSize labels' ≤ labelSize labels
  count : labelSize labels' = labelSize labels → labels.length ≤ labels'.length
  clean : labelSize labels' = labelSize labels → labels'.length = labels.length → CleanLabels labels

/-- A text up to some `c` is no longer than the text up to the last one. -/
theorem length_le_of_append_cons {α : Type} {c : α} {u a w b : List α}
    (h : u ++ c :: a = w ++ c :: b) (hc : c ∉ a) :
    w.length ≤ u.length ∧ (w.length = u.length → w = u) := by
  rcases List.append_eq_append_iff.mp h with ⟨t, rfl, ht⟩ | ⟨t, rfl, -⟩
  · cases t with
    | nil => simp
    | cons x t =>
      refine absurd ?_ hc
      rw [(List.cons.inj ht).2]
      simp
  · simp only [List.length_append]
    refine ⟨by omega, fun hlen => ?_⟩
    obtain rfl := List.eq_nil_of_length_eq_zero (show t.length = 0 by omega)
    rw [List.append_nil]

theorem readFor_of_readLine {metric : List Char} (h : isMetricName metric = true)
    {labels : Labels} (hne : labels ≠ []) (hnames : ∀ l ∈ labels, isLabelName l.1 = true)
    (number : NumberText F) {x : Line F}
    (hx : readLine F (metric ++ '{' :: (afterBrace labels number).takeWhile (· != '\n')) = some x) :
    ∃ labels' value, x = .sample metric labels' value ∧ ReadFor labels labels' := by
  rw [readLine_labelled h, Option.bind_eq_some_iff] at hx
  obtain ⟨⟨labels', rest⟩, hread, hx⟩ := hx
  obtain ⟨hnodup, hx⟩ := Option.ite_none_right_eq_some.mp hx
  obtain ⟨value, -, rfl⟩ := Option.map_eq_some_iff.mp hx
  obtain ⟨hnames', w, hw, hle, htight⟩ := readLabels_length hread
  have hsplit : labelText labels ++ '}' :: ' ' :: number.1.1 =
      w ++ '}' :: (rest ++ (afterBrace labels number).dropWhile (· != '\n')) := by
    have happend :=
      List.takeWhile_append_dropWhile (p := (· != '\n')) (l := afterBrace labels number)
    rw [hw, List.append_assoc] at happend
    exact happend.symm
  have hbrace : '}' ∉ ' ' :: number.1.1 := by
    simp only [List.mem_cons, not_or]
    exact ⟨by decide, fun hmem => (number.plain hmem).2.2 rfl⟩
  obtain ⟨hlength, heq⟩ := length_le_of_append_cons hsplit hbrace
  have hsize := length_labelText hne
  -- only labels that are as long as what is written are all of it
  have hall : labelSize labels' = labelSize labels →
      w = labelText labels ∧ w = labelText labels' ∧ ∀ l ∈ labels', '"' ∉ l.2 ∧ '\\' ∉ l.2 :=
    fun heqsize => ⟨heq (by omega), htight (by omega)⟩
  refine ⟨labels', value, rfl, by omega, fun heqsize => ?_, fun heqsize hcount => ?_⟩
  · obtain ⟨hown, hread', hvalues'⟩ := hall heqsize
    have hquotes := count_of_labelText_eq (hown.symm.trans hread') hnames hnames' fun l hl =>
      (hvalues' l hl).1
    omega
  · obtain ⟨hown, hread', hvalues'⟩ := hall heqsize
    have hline : '\n' ∉ labelText labels := fun hmem => by
      have hmem' : '\n' ∈ (afterBrace labels number).takeWhile (· != '\n') := by
        rw [hw, hown]
        exact List.mem_append_left _ hmem
      exact absurd (List.mem_takeWhile_imp hmem') (by decide)
    have hvalues :=
      clean_of_labelText_eq (hown.symm.trans hread') hcount hnames hnames' hvalues' hline
    refine ⟨hvalues, ?_⟩
    have hfuel : labels.length ≤
        ((afterBrace labels number).takeWhile (· != '\n')).length + 1 := by
      have hle' := length_le_labelText labels
      rw [hw, hown, List.length_append]
      omega
    have hsame := readLabels_clean hne hnames hvalues hfuel rest
    rw [← hown, ← hw, hread] at hsame
    obtain ⟨rfl, -⟩ := Prod.mk.inj (Option.some.inj hsame)
    exact hnodup

theorem readFor_nil : ReadFor [] [] :=
  ⟨le_refl _, fun _ => le_refl _, fun _ _ => ⟨by simp, List.nodup_nil⟩⟩

/-- A line of a sample is read as a sample of the same metric first. -/
theorem Entry.read_sample {metric : List Char} {labels : Labels} {number : NumberText F}
    (hnamed : (Entry.sample metric labels number).Named)
    (hlines : ∀ line ∈ (Entry.sample metric labels number).text.splitOn '\n',
      (readLine F line).isSome) :
    ∃ labels' value rest, (Entry.sample metric labels number).read =
      .sample metric labels' value :: rest ∧ ReadFor labels labels' := by
  obtain ⟨hmetric, hnames⟩ := hnamed
  by_cases hne : labels = []
  · subst hne
    refine ⟨[], number.1.2, [], ?_, readFor_nil⟩
    rw [Entry.read, splitOn_bare hmetric,
      List.filterMap_cons_some (readLine_bare hmetric number)]
    rfl
  · have hsplit := splitOn_labelled hmetric hne number
    obtain ⟨x, hx⟩ := Option.isSome_iff_exists.mp (hlines _ (hsplit ▸ List.mem_cons_self))
    obtain ⟨labels', value, rfl, hread⟩ := readFor_of_readLine hmetric hne hnames number hx
    exact ⟨labels', value, _, by rw [Entry.read, hsplit, List.filterMap_cons_some hx], hread⟩

end Misreading

end Prometheus
