import Aerosuite.Library.Unescaped
import Mathlib.Algebra.Order.BigOperators.Group.List
import Mathlib.Data.List.Nodup

/-! Texts that give the metrics one after the other, each with its help text, its type and its
samples, and when such a text is read back as what it was written for. -/

namespace Prometheus

variable {F : Type} [Number F]

/-- A metric as it is written: its help text, its type and its samples. -/
structure Family (F : Type) [Number F] where
  metric : List Char
  doc : Option (List Char)
  kind : MetricType
  samples : List (Labels × NumberText F)

namespace Family

def entries (f : Family F) : List (Entry F) :=
  f.doc.toList.map (.help f.metric) ++
    .type f.metric f.kind :: f.samples.map fun s => .sample f.metric s.1 s.2

def values (f : Family F) : List (Sample F) :=
  f.samples.map fun s => ⟨f.metric, s.1, s.2.1.2, f.kind⟩

def tags (f : Family F) : List (List Char × Tag) :=
  f.doc.toList.map (fun _ => (f.metric, .help)) ++
    (f.metric, .type) :: List.replicate f.samples.length (f.metric, .sample)

/-- The names of a metric and of its labels are names of the format. -/
structure Named (f : Family F) : Prop where
  metric : isMetricName f.metric = true
  labels : ∀ s ∈ f.samples, ∀ l ∈ s.1, isLabelName l.1 = true

/-- Neither the help text nor the labels of a metric need an escape. -/
structure Clean (f : Family F) : Prop where
  doc : ∀ d ∈ f.doc, CleanDoc d
  labels : ∀ s ∈ f.samples, CleanLabels s.1

end Family

/-- The text of some metrics. -/
def familiesText (fs : List (Family F)) : List Char :=
  Text.unlines ((fs.flatMap Family.entries).map Entry.text)

/-- Every metric has one type, and right behind it all its samples. -/
def Typed (tags : List (List Char × Tag)) : Prop :=
  ∀ metric ∈ tags.map Prod.fst, ∃ before n after,
    tags = before ++ (metric, .type) :: (List.replicate n (metric, .sample) ++ after) ∧
      (metric, Tag.type) ∉ before ++ after ∧ (metric, Tag.sample) ∉ before ++ after

/-- A text in the format that has exactly these samples. -/
structure ReadsBack (F : Type) [Number F] (text : List Char) (expected : List (Sample F)) :
    Prop where
  valid : ValidText F text
  samples : (samples (readText F text)).Perm expected
  typed : Typed ((readText F text).filterMap Line.tag)

section Rules

theorem Grouped.append {α : Type} [DecidableEq α] {a b : List α} (ha : Grouped a) (hb : Grouped b)
    (hdisj : ∀ x ∈ a, x ∉ b) : Grouped (a ++ b) := by
  induction a with
  | nil => exact hb
  | cons x a ih =>
    obtain ⟨hx, hdisj⟩ := List.forall_mem_cons.mp hdisj
    refine ⟨fun hmem => ?_, ih ha.2 hdisj⟩
    rw [List.append_eq, List.dropWhile_append] at hmem
    split at hmem
    · exact hx ((List.dropWhile_sublist _).subset hmem)
    · rcases List.mem_append.mp hmem with hmem | hmem
      · exact ha.1 hmem
      · exact hx hmem

theorem grouped_of_forall_eq {α : Type} [DecidableEq α] {a : α} {l : List α} (h : ∀ b ∈ l, b = a) :
    Grouped l := by
  induction l with
  | nil => trivial
  | cons x l ih =>
    obtain ⟨rfl, h⟩ := List.forall_mem_cons.mp h
    refine ⟨?_, ih h⟩
    rw [List.dropWhile_eq_nil_iff.mpr (by simpa using h)]
    exact List.not_mem_nil

/-- Between two equal members of a grouped list all are equal. -/
theorem Grouped.middle {α : Type} [DecidableEq α] {pre mid post : List α} {a : α}
    (h : Grouped (pre ++ a :: (mid ++ a :: post))) : ∀ b ∈ mid, b = a := by
  induction pre with
  | nil =>
    by_contra hne
    push Not at hne
    obtain ⟨b, hb, hba⟩ := hne
    refine h.1 ?_
    rw [List.dropWhile_append, if_neg]
    · exact List.mem_append_right _ List.mem_cons_self
    · rw [List.isEmpty_iff, List.dropWhile_eq_nil_iff]
      intro hall
      exact hba (by simpa using hall b hb)
  | cons x pre ih => exact ih h.2

theorem Valid.append {a b : List (List Char × Tag)} (ha : Valid a) (hb : Valid b)
    (hdisj : ∀ x ∈ a.map Prod.fst, x ∉ b.map Prod.fst) : Valid (a ++ b) := by
  have hcount : ∀ t, a.count t ≤ 1 → b.count t ≤ 1 → (a ++ b).count t ≤ 1 := by
    intro t hta htb
    rw [List.count_append]
    by_cases hmem : t ∈ a
    · have hzero : b.count t = 0 := List.count_eq_zero.mpr fun hmem' =>
        hdisj t.1 (List.mem_map_of_mem hmem) (List.mem_map_of_mem hmem')
      omega
    · rw [List.count_eq_zero.mpr hmem]
      omega
  refine ⟨fun m => hcount _ (ha.help_once m) (hb.help_once m),
    fun m => hcount _ (ha.type_once m) (hb.type_once m), ?_, ?_⟩
  · rw [List.map_append]
    exact ha.grouped.append hb.grouped hdisj
  · rw [List.pairwise_append]
    refine ⟨ha.metadata_first, hb.metadata_first, fun x hx y hy heq => ?_⟩
    exact absurd (heq ▸ List.mem_map_of_mem hy) (hdisj x.1 (List.mem_map_of_mem hx))

/-- Nothing but samples stands between a help text and the type of its metric. -/
theorem Valid.nothing_between {pre mid post : List (List Char × Tag)} {metric : List Char}
    (h : Valid (pre ++ (metric, .help) :: (mid ++ (metric, .type) :: post)))
    (hsample : ∀ t ∈ mid, t.2 ≠ .sample) : mid = [] := by
  rw [List.eq_nil_iff_forall_not_mem]
  rintro ⟨m, tag⟩ hmem
  have hgrouped := h.grouped
  simp only [List.map_append, List.map_cons] at hgrouped
  obtain rfl : m = metric := hgrouped.middle m (List.mem_map_of_mem hmem)
  have hpos := List.count_pos_iff.mpr hmem
  cases tag with
  | sample => exact hsample _ hmem rfl
  | help =>
    have honce := h.help_once m
    simp only [List.count_append, List.count_cons_self] at honce
    omega
  | type =>
    have honce := h.type_once m
    simp only [List.count_append, List.count_cons, beq_self_eq_true, if_true] at honce
    omega

end Rules

section Written

theorem Family.filterMap_line {β : Type} (g : Line F → Option β) (f : Family F) :
    (f.entries.map Entry.line).filterMap g =
      f.doc.toList.filterMap (fun d => g (.help f.metric d)) ++
        ((g (.type f.metric f.kind)).toList ++
          f.samples.filterMap fun s => g (.sample f.metric s.1 s.2.1.2)) := by
  have htype : (Line.type f.metric f.kind :: f.samples.map fun s =>
      Line.sample f.metric s.1 s.2.1.2).filterMap g = (g (.type f.metric f.kind)).toList ++
        f.samples.filterMap fun s => g (.sample f.metric s.1 s.2.1.2) := by
    rw [List.filterMap_cons, List.filterMap_map]
    cases g (.type f.metric f.kind) <;> rfl
  rw [← htype]
  simp only [Family.entries, List.map_append, List.map_map, List.map_cons, List.filterMap_append,
    List.filterMap_map]
  rfl

theorem Family.map_tag (f : Family F) :
    (f.entries.map Entry.line).filterMap Line.tag = f.tags := by
  rw [f.filterMap_line, Family.tags]
  simp [Line.tag, List.filterMap_eq_map']

theorem Family.map_sampleOf (f : Family F) :
    (f.entries.map Entry.line).filterMap Line.sampleOf =
      f.samples.map fun s => (f.metric, s.1, s.2.1.2) := by
  rw [f.filterMap_line]
  simp [Line.sampleOf, List.filterMap_eq_map']

theorem Family.map_typeOf (f : Family F) :
    (f.entries.map Entry.line).filterMap Line.typeOf = [(f.metric, f.kind)] := by
  rw [f.filterMap_line]
  simp [Line.typeOf]

theorem Family.mem_tags {f : Family F} {t : List Char × Tag} (h : t ∈ f.tags) : t.1 = f.metric := by
  simp only [Family.tags, List.mem_append, List.mem_map, List.mem_cons, List.mem_replicate] at h
  rcases h with ⟨-, -, rfl⟩ | rfl | ⟨-, rfl⟩ <;> rfl

theorem Family.valid_tags (f : Family F) : Valid f.tags := by
  refine ⟨fun m => ?_, fun m => ?_, grouped_of_forall_eq (a := f.metric) ?_, ?_⟩
  · cases hdoc : f.doc <;> simp [Family.tags, hdoc, List.count_cons, List.count_replicate]
    split <;> simp
  · cases hdoc : f.doc <;> simp [Family.tags, hdoc, List.count_cons, List.count_replicate]
    all_goals split <;> simp
  · intro m hm
    obtain ⟨t, ht, rfl⟩ := List.mem_map.mp hm
    exact Family.mem_tags ht
  · cases hdoc : f.doc <;> simp [Family.tags, hdoc, List.pairwise_replicate]

theorem valid_families {fs : List (Family F)} (hnodup : (fs.map Family.metric).Nodup) :
    Valid (fs.flatMap Family.tags) := by
  induction fs with
  | nil => exact ⟨by simp, by simp, trivial, List.Pairwise.nil⟩
  | cons f fs ih =>
    rw [List.map_cons, List.nodup_cons] at hnodup
    rw [List.flatMap_cons]
    refine f.valid_tags.append (ih hnodup.2) fun x hx hmem => hnodup.1 ?_
    obtain ⟨t, ht, rfl⟩ := List.mem_map.mp hx
    obtain ⟨t', ht', heq⟩ := List.mem_map.mp hmem
    obtain ⟨f', hf', ht'⟩ := List.mem_flatMap.mp ht'
    rw [← Family.mem_tags ht, ← heq, Family.mem_tags ht']
    exact List.mem_map_of_mem hf'

theorem typed_families {fs : List (Family F)} (hnodup : (fs.map Family.metric).Nodup) :
    Typed (fs.flatMap Family.tags) := by
  intro metric hmetric
  obtain ⟨t, ht, rfl⟩ := List.mem_map.mp hmetric
  obtain ⟨f, hf, ht⟩ := List.mem_flatMap.mp ht
  rw [Family.mem_tags ht]
  obtain ⟨pre, post, rfl⟩ := List.append_of_mem hf
  have hother : ∀ tag, (f.metric, tag) ∉ pre.flatMap Family.tags ++ post.flatMap Family.tags := by
    intro tag hmem
    rw [← List.flatMap_append] at hmem
    obtain ⟨f', hf', htag⟩ := List.mem_flatMap.mp hmem
    rw [List.map_append, List.map_cons, List.nodup_middle, List.nodup_cons, ← List.map_append]
      at hnodup
    have hmetric : f.metric = f'.metric := Family.mem_tags htag
    exact hnodup.1 (hmetric ▸ List.mem_map_of_mem hf')
  refine ⟨pre.flatMap Family.tags ++ f.doc.toList.map fun _ => (f.metric, .help),
    f.samples.length, post.flatMap Family.tags, by simp [Family.tags], ?_, ?_⟩
  · have hnot := hother .type
    simp only [List.mem_append, not_or] at hnot ⊢
    exact ⟨⟨hnot.1, by simp⟩, hnot.2⟩
  · have hnot := hother .sample
    simp only [List.mem_append, not_or] at hnot ⊢
    exact ⟨⟨hnot.1, by simp⟩, hnot.2⟩

/-- The lines that the text of some metrics is written for. -/
def familiesLines (fs : List (Family F)) : List (Line F) :=
  (fs.flatMap Family.entries).map Entry.line

theorem filterMap_familiesLines {β : Type} (g : Line F → Option β) (fs : List (Family F)) :
    (familiesLines fs).filterMap g =
      fs.flatMap fun f => (f.entries.map Entry.line).filterMap g := by
  rw [familiesLines, List.map_flatMap, List.filterMap_flatMap]

theorem typeIn_familiesLines {fs : List (Family F)} (hnodup : (fs.map Family.metric).Nodup)
    {f : Family F} (hf : f ∈ fs) : typeIn (familiesLines fs) f.metric = f.kind := by
  have htypes : (familiesLines fs).filterMap Line.typeOf = fs.map fun f => (f.metric, f.kind) := by
    rw [filterMap_familiesLines, List.map_eq_flatMap]
    simp only [Family.map_typeOf]
  obtain ⟨f', hfind⟩ : ∃ f', fs.find? (fun f' => f'.metric = f.metric) = some f' :=
    Option.isSome_iff_exists.mp (List.find?_isSome.mpr ⟨f, hf, by simp⟩)
  have hmetric : f'.metric = f.metric := by simpa using List.find?_some hfind
  obtain rfl := List.inj_on_of_nodup_map hnodup (List.mem_of_find?_eq_some hfind) hf hmetric
  rw [typeIn, htypes, List.find?_map]
  simp only [Function.comp_def, hfind]
  rfl

theorem samples_familiesLines {fs : List (Family F)} (hnodup : (fs.map Family.metric).Nodup) :
    samples (familiesLines fs) = fs.flatMap Family.values := by
  simp only [samples, filterMap_familiesLines, Family.map_sampleOf, List.map_flatMap, List.map_map]
  refine List.flatMap_congr fun f hf => ?_
  simp only [Family.values, Function.comp_def, typeIn_familiesLines hnodup hf]

end Written

section Clean

/-- What is read of an entry without anything to escape is what is meant, up to the help text. -/
theorem Entry.filterMap_read {e : Entry F} (hnamed : e.Named) (hclean : e.Clean) {β : Type}
    {g : Line F → Option β} (hcomment : g .comment = none)
    (hdoc : ∀ m d d', g (.help m d) = g (.help m d')) :
    e.read.filterMap g = [e.line].filterMap g := by
  obtain ⟨first, rest, hsplit, hrest, hfirst⟩ := Entry.splitOn_clean hnamed hclean
  have hcomments : (rest.filterMap (readLine F)).filterMap g = [] := by
    rw [List.filterMap_filterMap, List.filterMap_eq_nil_iff]
    intro line hline
    rw [hrest line hline, Option.bind_some, hcomment]
  rw [Entry.read, hsplit]
  rcases hfirst with hfirst | ⟨m, d, d', hline, hfirst⟩
  · rw [List.filterMap_cons_some hfirst, ← List.singleton_append, List.filterMap_append,
      hcomments, List.append_nil]
  · rw [List.filterMap_cons_some hfirst, ← List.singleton_append, List.filterMap_append,
      hcomments, List.append_nil, hline]
    simp only [List.filterMap_cons, hdoc m d' d]

theorem Entry.readable {e : Entry F} (hnamed : e.Named) (hclean : e.Clean) :
    ∀ line ∈ e.text.splitOn '\n', (readLine F line).isSome := by
  obtain ⟨first, rest, hsplit, hrest, hfirst⟩ := Entry.splitOn_clean hnamed hclean
  rw [hsplit]
  refine List.forall_mem_cons.mpr ⟨?_, fun line hline => by rw [hrest line hline]; rfl⟩
  rcases hfirst with hfirst | ⟨m, d, d', -, hfirst⟩ <;> rw [hfirst] <;> rfl

theorem Family.entries_named {f : Family F} (h : f.Named) : ∀ e ∈ f.entries, e.Named := by
  simp only [Family.entries, List.mem_append, List.mem_cons, List.mem_map]
  rintro e (⟨d, -, rfl⟩ | rfl | ⟨s, hs, rfl⟩)
  · exact h.metric
  · exact h.metric
  · exact ⟨h.metric, h.labels s hs⟩

theorem Family.entries_clean {f : Family F} (h : f.Clean) : ∀ e ∈ f.entries, e.Clean := by
  simp only [Family.entries, List.mem_append, List.mem_cons, List.mem_map, Option.mem_toList]
  rintro e (⟨d, hd, rfl⟩ | rfl | ⟨s, hs, rfl⟩)
  · exact h.doc d hd
  · trivial
  · exact h.labels s hs

theorem readText_familiesText (fs : List (Family F)) :
    readText F (familiesText fs) = (fs.flatMap Family.entries).flatMap Entry.read :=
  readText_unlines _

theorem readsBack_of_clean {fs : List (Family F)} (hnamed : ∀ f ∈ fs, f.Named)
    (hnodup : (fs.map Family.metric).Nodup) (hclean : ∀ f ∈ fs, f.Clean) :
    ReadsBack F (familiesText fs) (fs.flatMap Family.values) := by
  have hentry : ∀ e ∈ fs.flatMap Family.entries, e.Named ∧ e.Clean := by
    intro e he
    obtain ⟨f, hf, he⟩ := List.mem_flatMap.mp he
    exact ⟨Family.entries_named (hnamed f hf) e he, Family.entries_clean (hclean f hf) e he⟩
  have hread : ∀ {β : Type} {g : Line F → Option β}, g .comment = none →
      (∀ m d d', g (.help m d) = g (.help m d')) →
      (readText F (familiesText fs)).filterMap g = (familiesLines fs).filterMap g := by
    intro β g hcomment hdoc
    rw [readText_familiesText, familiesLines, List.filterMap_flatMap, List.map_eq_flatMap,
      List.filterMap_flatMap]
    exact List.flatMap_congr fun e he =>
      Entry.filterMap_read (hentry e he).1 (hentry e he).2 hcomment hdoc
  have htags : (readText F (familiesText fs)).filterMap Line.tag = fs.flatMap Family.tags := by
    rw [hread rfl fun _ _ _ => rfl, filterMap_familiesLines]
    simp only [Family.map_tag]
  refine ⟨⟨?_, fun line hline => ?_, ?_⟩, ?_, ?_⟩
  · rw [familiesText, splitOn_unlines, List.getLast?_concat]
  · rw [familiesText, textLines_unlines, List.flatMap_map] at hline
    obtain ⟨e, he, hline⟩ := List.mem_flatMap.mp hline
    exact Entry.readable (hentry e he).1 (hentry e he).2 line hline
  · rw [htags]
    exact valid_families hnodup
  · have hsamples : samples (readText F (familiesText fs)) = samples (familiesLines fs) := by
      rw [samples, samples, hread rfl fun _ _ _ => rfl]
      simp only [typeIn, hread (g := Line.typeOf) rfl fun _ _ _ => rfl]
    rw [hsamples, samples_familiesLines hnodup]
  · rw [htags]
    exact typed_families hnodup

end Clean

section Misread

/-- The sum of `g` over the labels of the samples. -/
def weight (g : Labels → ℕ) (ls : List (Line F)) : ℕ :=
  ((ls.filterMap Line.sampleOf).map fun s => g s.2.1).sum

theorem weight_flatMap (g : Labels → ℕ) (es : List (Entry F)) (h : Entry F → List (Line F)) :
    weight g (es.flatMap h) = (es.map fun e => weight g (h e)).sum := by
  induction es with
  | nil => rfl
  | cons e es ih =>
    rw [List.flatMap_cons, List.map_cons, List.sum_cons, ← ih]
    simp only [weight, List.filterMap_append, List.map_append, List.sum_append]

theorem weight_eq_of_perm {es : List (Entry F)} (hperm : ((es.flatMap Entry.read).filterMap
    Line.sampleOf).Perm ((es.map Entry.line).filterMap Line.sampleOf)) (g : Labels → ℕ) :
    (es.map fun e => weight g e.read).sum = (es.map fun e => weight g [e.line]).sum := by
  rw [← weight_flatMap, ← weight_flatMap, ← List.map_eq_flatMap]
  exact (hperm.map _).sum_eq

theorem eq_of_sum_le {α : Type} {l : List α} {f g : α → ℕ} (hle : ∀ a ∈ l, f a ≤ g a)
    (hsum : (l.map g).sum ≤ (l.map f).sum) : ∀ a ∈ l, f a = g a := by
  intro a ha
  by_contra hne
  exact absurd (List.sum_lt_sum f g hle ⟨a, ha, lt_of_le_of_ne (hle a ha) hne⟩) hsum.not_gt

omit [Number F] in
theorem weight_eq_zero {ls : List (Line F)} :
    weight (fun _ => 1) ls = 0 ↔ ls.filterMap Line.sampleOf = [] := by
  simp [weight]

/-- The samples of an entry that is read as as many as it is written for: none, or one in place of
its own. -/
theorem Entry.weight_read {e : Entry F} (hnamed : e.Named)
    (hlines : ∀ line ∈ e.text.splitOn '\n', (readLine F line).isSome)
    (hone : weight (fun _ => 1) e.read = weight (fun _ => 1) [e.line]) :
    (∀ g, weight g e.read = 0 ∧ weight g [e.line] = 0) ∨
      ∃ m labels number labels', e = .sample m labels number ∧ ReadFor labels labels' ∧
        ∀ g, weight g e.read = g labels' ∧ weight g [e.line] = g labels := by
  have hnone : ∀ g, e.line.sampleOf = none → weight g e.read = 0 ∧ weight g [e.line] = 0 := by
    intro g hline
    have hzero : weight (fun _ => 1) [e.line] = 0 := by simp [weight, hline]
    rw [hzero, weight_eq_zero] at hone
    simp [weight, hline, hone]
  cases e with
  | help m doc => exact Or.inl fun g => hnone g rfl
  | type m kind => exact Or.inl fun g => hnone g rfl
  | sample m labels number =>
    obtain ⟨labels', value, rest, hread, hfor⟩ := Entry.read_sample hnamed hlines
    have hrest : rest.filterMap Line.sampleOf = [] := by
      rw [← weight_eq_zero]
      rw [hread] at hone
      simpa [weight, Entry.line, Line.sampleOf] using hone
    refine Or.inr ⟨m, labels, number, labels', rfl, hfor, fun g => ⟨?_, ?_⟩⟩
    · simp [hread, weight, Line.sampleOf, hrest]
    · simp [weight, Entry.line, Line.sampleOf]

/-- When the samples that are read are those that are meant, each entry gives its number of them. -/
theorem weight_one_of_perm {es : List (Entry F)} (hnamed : ∀ e ∈ es, e.Named)
    (hlines : ∀ e ∈ es, ∀ line ∈ e.text.splitOn '\n', (readLine F line).isSome)
    (hperm : ((es.flatMap Entry.read).filterMap Line.sampleOf).Perm
      ((es.map Entry.line).filterMap Line.sampleOf)) :
    ∀ e ∈ es, weight (fun _ => 1) e.read = weight (fun _ => 1) [e.line] := by
  have hle : ∀ e ∈ es, weight (fun _ => 1) [e.line] ≤ weight (fun _ => 1) e.read := by
    intro e he
    cases e with
    | help m doc => exact Nat.zero_le _
    | type m kind => exact Nat.zero_le _
    | sample m labels number =>
      obtain ⟨labels', value, rest, hread, -⟩ := Entry.read_sample (hnamed _ he) (hlines _ he)
      simp [hread, weight, Entry.line, Line.sampleOf]
  intro e he
  exact (eq_of_sum_le hle (weight_eq_of_perm hperm _).le e he).symm

/-- When the samples that are read are those that are meant, no label needs an escape.  Labels that
are misread are shorter, or as long and more. -/
theorem cleanLabels_of_perm {es : List (Entry F)} (hnamed : ∀ e ∈ es, e.Named)
    (hlines : ∀ e ∈ es, ∀ line ∈ e.text.splitOn '\n', (readLine F line).isSome)
    (hperm : ((es.flatMap Entry.read).filterMap Line.sampleOf).Perm
      ((es.map Entry.line).filterMap Line.sampleOf))
    {m : List Char} {labels : Labels} {number : NumberText F}
    (hmem : .sample m labels number ∈ es) : CleanLabels labels := by
  have hread := fun e he =>
    Entry.weight_read (hnamed e he) (hlines e he) (weight_one_of_perm hnamed hlines hperm e he)
  have hsize : ∀ e ∈ es, weight labelSize e.read = weight labelSize [e.line] := by
    refine eq_of_sum_le (fun e he => ?_) (weight_eq_of_perm hperm _).ge
    rcases hread e he with hzero | ⟨m, labels, number, labels', -, hfor, hweight⟩
    · exact (hzero labelSize).1.trans_le (Nat.zero_le _)
    · rw [(hweight labelSize).1, (hweight labelSize).2]
      exact hfor.size
  have hcount : ∀ e ∈ es, weight List.length [e.line] = weight List.length e.read := by
    refine eq_of_sum_le (fun e he => ?_) (weight_eq_of_perm hperm _).le
    have hsize' := hsize e he
    rcases hread e he with hzero | ⟨m, labels, number, labels', -, hfor, hweight⟩
    · exact (hzero List.length).2.trans_le (Nat.zero_le _)
    · rw [(hweight labelSize).1, (hweight labelSize).2] at hsize'
      rw [(hweight List.length).1, (hweight List.length).2]
      exact hfor.count hsize'
  have hsize' := hsize _ hmem
  have hcount' := hcount _ hmem
  rcases hread _ hmem with hzero | ⟨m, labels, number, labels', heq, hfor, hweight⟩
  · have hone := (hzero fun _ => 1).2
    simp [weight, Entry.line, Line.sampleOf] at hone
  · obtain ⟨rfl, rfl, rfl⟩ := Entry.sample.inj heq
    rw [(hweight labelSize).1, (hweight labelSize).2] at hsize'
    rw [(hweight List.length).1, (hweight List.length).2] at hcount'
    exact hfor.clean hsize' hcount'.symm

/-- A help text that is read without a sample, right before the type of its metric, is clean. -/
theorem cleanDoc_of_valid {m doc : List Char} {k : MetricType} (hm : isMetricName m = true)
    (hlines : ∀ line ∈ (Entry.help (F := F) m doc).text.splitOn '\n', (readLine F line).isSome)
    (hsample : (Entry.help (F := F) m doc).read.filterMap Line.sampleOf = [])
    {pre post : List (Entry F)}
    (hvalid : Valid (((pre ++ .help m doc :: .type m k :: post).flatMap Entry.read).filterMap
      Line.tag)) : CleanDoc doc := by
  have hsplit := splitOn_help (F := F) hm doc
  rw [hsplit] at hlines
  obtain ⟨hfirst, hrest⟩ := List.forall_mem_cons.mp hlines
  rw [readLine_help hm, Option.isSome_map, unescapeDoc_skipBlanks] at hfirst
  refine ⟨hfirst, fun line hline => ?_⟩
  obtain ⟨d, hd⟩ := Option.isSome_iff_exists.mp
    ((unescapeDoc_skipBlanks (doc.takeWhile (· != '\n'))).trans hfirst)
  have hread : (Entry.help (F := F) m doc).read =
      .help m d :: (doc.splitOn '\n').tail.filterMap (readLine F) := by
    rw [Entry.read, hsplit, List.filterMap_cons_some (by rw [readLine_help hm, hd]; rfl)]
  have htype : (Entry.type (F := F) m k).read = [.type m k] := by
    rw [Entry.read, splitOn_type hm, text_type, List.filterMap_cons_some (readLine_type hm k)]
    rfl
  simp only [List.flatMap_append, List.flatMap_cons, hread, htype, List.filterMap_append,
    List.filterMap_cons, Line.tag, List.cons_append, List.nil_append] at hvalid
  have hnone := hvalid.nothing_between (fun t ht htag => ?_)
  · obtain ⟨x, hx⟩ := Option.isSome_iff_exists.mp (hrest line hline)
    have htag := List.filterMap_eq_nil_iff.mp hnone x
      (List.mem_filterMap.mpr ⟨line, hline, hx⟩)
    cases x with
    | comment => exact (readLine_eq_comment line).mp hx
    | help => cases htag
    | type => cases htag
    | sample => cases htag
  · obtain ⟨x, hx, hxt⟩ := List.mem_filterMap.mp ht
    rw [hread] at hsample
    have hnot := List.filterMap_eq_nil_iff.mp hsample x (List.mem_cons_of_mem _ hx)
    cases x with
    | sample => cases hnot
    | comment => cases hxt
    | help => cases hxt; cases htag
    | type => cases hxt; cases htag

theorem clean_of_readsBack {fs : List (Family F)} (hnamed : ∀ f ∈ fs, f.Named)
    (hnodup : (fs.map Family.metric).Nodup)
    (h : ReadsBack F (familiesText fs) (fs.flatMap Family.values)) : ∀ f ∈ fs, f.Clean := by
  have hnamed' : ∀ e ∈ fs.flatMap Family.entries, e.Named := by
    intro e he
    obtain ⟨f, hf, he⟩ := List.mem_flatMap.mp he
    exact Family.entries_named (hnamed f hf) e he
  have hlines : ∀ e ∈ fs.flatMap Family.entries, ∀ line ∈ e.text.splitOn '\n',
      (readLine F line).isSome := by
    intro e he line hline
    refine h.valid.lines line ?_
    rw [familiesText, textLines_unlines, List.flatMap_map]
    exact List.mem_flatMap.mpr ⟨e, he, hline⟩
  have hperm : (((fs.flatMap Family.entries).flatMap Entry.read).filterMap Line.sampleOf).Perm
      ((familiesLines fs).filterMap Line.sampleOf) := by
    have hsamples := h.samples
    rw [← samples_familiesLines hnodup, readText_familiesText] at hsamples
    have hmap := hsamples.map fun s => (s.metric, s.labels, s.value)
    simpa [samples, Function.comp_def] using hmap
  intro f hf
  refine ⟨fun doc hdoc => ?_, fun s hs => ?_⟩
  · obtain ⟨pre, post, rfl⟩ := List.append_of_mem hf
    have hentries : f.entries = .help f.metric doc :: .type f.metric f.kind ::
        f.samples.map fun s => .sample f.metric s.1 s.2 := by
      simp [Family.entries, Option.mem_def.mp hdoc]
    have hmem : .help f.metric doc ∈ (pre ++ f :: post).flatMap Family.entries :=
      List.mem_flatMap.mpr ⟨f, hf, by simp [hentries]⟩
    have hvalid := h.valid.valid
    rw [readText_familiesText, List.flatMap_append, List.flatMap_cons, hentries, List.cons_append,
      List.cons_append] at hvalid
    have hone := weight_one_of_perm hnamed' hlines hperm _ hmem
    exact cleanDoc_of_valid (hnamed f hf).metric (hlines _ hmem) (weight_eq_zero.mp hone) hvalid
  · have hmem : .sample f.metric s.1 s.2 ∈ fs.flatMap Family.entries := by
      refine List.mem_flatMap.mpr ⟨f, hf, ?_⟩
      simp only [Family.entries, List.mem_append, List.mem_cons, List.mem_map]
      exact Or.inr (Or.inr ⟨s, hs, rfl⟩)
    exact cleanLabels_of_perm hnamed' hlines hperm hmem

/-- A text in which nothing is escaped is read back exactly when there was nothing to escape. -/
theorem readsBack_iff {fs : List (Family F)} (hnamed : ∀ f ∈ fs, f.Named)
    (hnodup : (fs.map Family.metric).Nodup) :
    ReadsBack F (familiesText fs) (fs.flatMap Family.values) ↔ ∀ f ∈ fs, f.Clean :=
  ⟨clean_of_readsBack hnamed hnodup, readsBack_of_clean hnamed hnodup⟩

end Misread

end Prometheus
