import Aerosuite.Library.Families

/-! The metrics that `aeroscale` exposes: the scraped samples of the backends with the slot as their
first label, whether a scrape failed, and the bandwidth, as a text that nothing is escaped in. -/

namespace Aerosuite.Metrics

open Prometheus

inductive SampleKind where
  | counter
  | gauge
  | untyped
  deriving DecidableEq

def SampleKind.asStr : SampleKind → String
  | .counter => "counter"
  | .gauge => "gauge"
  | .untyped => "untyped"

/-- A sample as it was scraped.  Its labels are what their text stands for, without escapes. -/
structure RawSample (F : Type) where
  metric : List Char
  value : F
  kind : SampleKind
  labels : Labels

structure BackendMetrics (F : Type) where
  slot : ℕ
  samples : List (RawSample F)
  docs : List Char → Option (List Char)
  error : Option String

structure MetricsState (F : Type) where
  backends : List (BackendMetrics F)
  scaler_eth0_rx_bps_raw : UInt64
  scaler_eth0_rx_bps_smoothed : UInt64

def scrapeError : List Char := "aeroftp_scrape_error".toList

def scrapeErrorHelp : List Char := "1 if the last scrape of this slot failed.".toList

def bpsRaw : List Char := "aeroscale_eth0_rx_bps_raw".toList

def bpsRawHelp : List Char :=
  "Instantaneous eth0 RX rate (delta-bytes/delta-time per scaler cycle) in bytes/s.".toList

def bpsSmoothed : List Char := "aeroscale_eth0_rx_bps_smoothed".toList

def bpsSmoothedHelp : List Char :=
  ("EMA-smoothed eth0 RX bandwidth (alpha=0.6) in bytes/s; ".toList ++
    "used for Trigger 2 (per-backend bandwidth scale-out).".toList)

section Source

variable {F : Type} [Number F]

abbrev Metadata := Std.TreeMap (List Char) (SampleKind × Option (List Char))

/-- `meta`: the kind of each metric and its help text, by its first sample in any backend. -/
def metadata (backends : List (BackendMetrics F)) : Metadata :=
  backends.foldl (fun m b =>
    b.samples.foldl (fun m s => m.insertIfNew s.metric (s.kind, b.docs s.metric)) m) ∅

/-- `label_str`: the slot, then the labels of the sample. -/
def labelStr (slot : ℕ) (labels : Labels) : List Char :=
  labels.foldl (fun out l => out ++ ',' :: (l.1 ++ '=' :: '"' :: (l.2 ++ ['"'])))
    ("slot=\"".toList ++ (Nat.toDigits 10 slot ++ ['"']))

def sampleLine (metric : List Char) (slot : ℕ) (s : RawSample F) : List Char :=
  metric ++ '{' :: (labelStr slot s.labels ++ '}' :: ' ' :: Number.display s.value)

def helpLine (metric help : List Char) : List Char := "# HELP ".toList ++ (metric ++ ' ' :: help)

def typeLine (metric : List Char) (kind : String) : List Char :=
  "# TYPE ".toList ++ (metric ++ ' ' :: kind.toList)

/-- The lines of a metric. -/
def metricLines (backends : List (BackendMetrics F)) (metric : List Char)
    (kind : SampleKind) (help : Option (List Char)) : List (List Char) :=
  help.toList.map (helpLine metric) ++ typeLine metric kind.asStr :: backends.flatMap fun b =>
    if b.error.isSome then []
    else (b.samples.filter fun s => s.metric = metric).map fun s => sampleLine metric b.slot s

def scrapeErrorLine (b : BackendMetrics F) : List Char :=
  scrapeError ++ '{' :: ("slot=\"".toList ++ (Nat.toDigits 10 b.slot ++ ("\"\x7d ".toList ++
    Nat.toDigits 10 (if b.error.isSome then 1 else 0))))

def scrapeErrorLines (backends : List (BackendMetrics F)) : List (List Char) :=
  let error_count := (backends.filter fun b => b.error.isSome).length
  if error_count > 0 then
    helpLine scrapeError scrapeErrorHelp :: typeLine scrapeError "gauge" ::
      backends.map scrapeErrorLine
  else []

def bandwidthLines (state : MetricsState F) : List (List Char) :=
  [helpLine bpsRaw bpsRawHelp, typeLine bpsRaw "gauge",
    bpsRaw ++ ' ' :: Nat.toDigits 10 state.scaler_eth0_rx_bps_raw.toNat,
    helpLine bpsSmoothed bpsSmoothedHelp, typeLine bpsSmoothed "gauge",
    bpsSmoothed ++ ' ' :: Nat.toDigits 10 state.scaler_eth0_rx_bps_smoothed.toNat]

/-- `format`: every line is written with `writeln!`. -/
def format (state : MetricsState F) : List Char :=
  Text.unlines (((metadata state.backends).toList.flatMap fun m =>
      metricLines state.backends m.1 m.2.1 m.2.2) ++
    (scrapeErrorLines state.backends ++ bandwidthLines state))

end Source

section Expected

variable {F : Type} [Number F]

def SampleKind.type : SampleKind → MetricType
  | .counter => .counter
  | .gauge => .gauge
  | .untyped => .untyped

/-- The label that is added to the labels of a sample. -/
def slotLabel (slot : ℕ) : List Char × List Char := ("slot".toList, Nat.toDigits 10 slot)

/-- The samples of the backends without error, with their slots. -/
def exposed (backends : List (BackendMetrics F)) : List (ℕ × RawSample F) :=
  backends.flatMap fun b => if b.error.isSome then [] else b.samples.map fun s => (b.slot, s)

/-- The sample that says whether the scrape of a backend failed. -/
def errorSample (b : BackendMetrics F) : Sample F :=
  ⟨scrapeError, [slotLabel b.slot], Number.ofNat (if b.error.isSome then 1 else 0), .gauge⟩

/-- The samples that the text is for. -/
def expected (state : MetricsState F) : List (Sample F) :=
  ((exposed state.backends).map fun p =>
      ⟨p.2.metric, slotLabel p.1 :: p.2.labels, p.2.value, p.2.kind.type⟩) ++
    ((if ∃ b ∈ state.backends, b.error.isSome then state.backends.map errorSample else []) ++
      [⟨bpsRaw, [], Number.ofNat state.scaler_eth0_rx_bps_raw.toNat, .gauge⟩,
        ⟨bpsSmoothed, [], Number.ofNat state.scaler_eth0_rx_bps_smoothed.toNat, .gauge⟩])

/-- The names are names of the format, no metric has the name of a fixed one, no label that of the
slot, and a metric has one kind. -/
structure WellNamed (state : MetricsState F) : Prop where
  metric : ∀ b ∈ state.backends, ∀ s ∈ b.samples,
    isMetricName s.metric = true ∧ s.metric ∉ [scrapeError, bpsRaw, bpsSmoothed]
  label : ∀ b ∈ state.backends, ∀ s ∈ b.samples, ∀ l ∈ s.labels,
    isLabelName l.1 = true ∧ l.1 ≠ "slot".toList
  kind : ∀ b ∈ state.backends, ∀ s ∈ b.samples, ∀ b' ∈ state.backends, ∀ s' ∈ b'.samples,
    s.metric = s'.metric → s.kind = s'.kind

/-- All samples with their backends, those of failed scrapes included. -/
def allSamples (backends : List (BackendMetrics F)) : List (BackendMetrics F × RawSample F) :=
  backends.flatMap fun b => b.samples.map fun s => (b, s)

/-- The help text of a metric: that of the first backend with a sample of it. -/
def helpOf (backends : List (BackendMetrics F)) (metric : List Char) : Option (List Char) :=
  ((allSamples backends).find? fun p => p.2.metric = metric).bind fun p => p.1.docs metric

/-- Nothing has to be escaped: not the labels of a sample that is exposed, nor a help text. -/
structure Exposable (state : MetricsState F) : Prop where
  labels : ∀ b ∈ state.backends, b.error = none → ∀ s ∈ b.samples, CleanLabels s.labels
  docs : ∀ metric, ∀ doc ∈ helpOf state.backends metric, CleanDoc doc

end Expected

section Families

variable {F : Type} [Number F]

theorem display_digits {n : ℕ} :
    ((Nat.toDigits 10 n).all fun c => c.isAlphanum || c == '.' || c == '-') = true := by
  rw [List.all_eq_true]
  intro c hc
  have hdigit := Nat.isDigit_of_mem_toDigits (b := 10) (by omega) (by omega) hc
  simp [Char.isAlphanum, hdigit]

/-- A whole number, as it is written. -/
def natText (n : ℕ) (h : n < 2 ^ 64) : NumberText F :=
  ⟨(Nat.toDigits 10 n, Number.ofNat n), Number.parse_ofNat n h, Nat.toDigits_ne_nil,
    display_digits⟩

def valueText (v : F) : NumberText F :=
  ⟨(Number.display v, v), Number.parse_display v, Number.display_ne_nil v, Number.display_plain v⟩

def metricFamily (backends : List (BackendMetrics F))
    (m : List Char × SampleKind × Option (List Char)) : Family F where
  metric := m.1
  doc := m.2.2
  kind := m.2.1.type
  samples := ((exposed backends).filter fun p => p.2.metric = m.1).map fun p =>
    (slotLabel p.1 :: p.2.labels, valueText p.2.value)

def errorFamily (backends : List (BackendMetrics F)) : Family F where
  metric := scrapeError
  doc := some scrapeErrorHelp
  kind := .gauge
  samples := backends.map fun b =>
    ([slotLabel b.slot], natText (if b.error.isSome then 1 else 0) (by split <;> decide))

def rawFamily (state : MetricsState F) : Family F where
  metric := bpsRaw
  doc := some bpsRawHelp
  kind := .gauge
  samples := [([], natText _ state.scaler_eth0_rx_bps_raw.toNat_lt)]

def smoothedFamily (state : MetricsState F) : Family F where
  metric := bpsSmoothed
  doc := some bpsSmoothedHelp
  kind := .gauge
  samples := [([], natText _ state.scaler_eth0_rx_bps_smoothed.toNat_lt)]

/-- The metrics that the text of a state gives. -/
def families (state : MetricsState F) : List (Family F) :=
  (metadata state.backends).toList.map (metricFamily state.backends) ++
    ((if ∃ b ∈ state.backends, b.error.isSome then [errorFamily state.backends] else []) ++
      [rawFamily state, smoothedFamily state])

theorem labelStr_eq (slot : ℕ) (labels : Labels) :
    labelStr slot labels = labelText (slotLabel slot :: labels) := by
  rw [labelStr, List.foldl_append_eq_append, labelText_cons_eq_flatMap, List.flatMap_def]
  rfl

theorem text_labelled_cons (metric : List Char) (label : List Char × List Char) (labels : Labels)
    (number : NumberText F) : (Entry.sample metric (label :: labels) number).text =
      metric ++ '{' :: (labelText (label :: labels) ++ '}' :: ' ' :: number.1.1) :=
  text_labelled metric (List.cons_ne_nil label labels) number

theorem metricLines_eq (backends : List (BackendMetrics F))
    (m : List Char × SampleKind × Option (List Char)) :
    metricLines backends m.1 m.2.1 m.2.2 = (metricFamily backends m).entries.map Entry.text := by
  have hsamples : (backends.flatMap fun b => if b.error.isSome then [] else
      (b.samples.filter fun s => s.metric = m.1).map fun s => sampleLine m.1 b.slot s) =
      (((exposed backends).filter fun p => p.2.metric = m.1).map fun p =>
        Entry.sample m.1 (slotLabel p.1 :: p.2.labels) (valueText p.2.value)).map Entry.text := by
    rw [exposed, List.filter_flatMap, List.map_flatMap, List.map_flatMap]
    refine List.flatMap_congr fun b _ => ?_
    split
    · rfl
    · rw [List.filter_map, List.map_map, List.map_map]
      refine List.map_congr_left fun s _ => ?_
      simp only [Function.comp_apply, text_labelled_cons, sampleLine, labelStr_eq]
      rfl
  have htype : typeLine m.1 m.2.1.asStr = (Entry.type (F := F) m.1 m.2.1.type).text := by
    cases m.2.1 <;> rfl
  rw [metricLines, hsamples, htype, Family.entries, metricFamily]
  simp only [List.map_append, List.map_cons, List.map_map]
  rfl

theorem scrapeErrorLine_eq (b : BackendMetrics F) (number : NumberText F)
    (h : number.1.1 = Nat.toDigits 10 (if b.error.isSome then 1 else 0)) :
    scrapeErrorLine b = (Entry.sample scrapeError [slotLabel b.slot] number).text := by
  rw [text_labelled_cons, labelText_singleton, labelItem, h, scrapeErrorLine]
  simp only [slotLabel, List.append_assoc, List.cons_append, List.nil_append]
  rfl

theorem scrapeErrorLines_eq (backends : List (BackendMetrics F)) :
    scrapeErrorLines backends =
      ((if ∃ b ∈ backends, b.error.isSome then [errorFamily backends] else []).flatMap
        Family.entries).map Entry.text := by
  have hcount : (backends.filter fun b => b.error.isSome).length > 0 ↔
      ∃ b ∈ backends, b.error.isSome := by
    rw [gt_iff_lt, List.length_pos_iff_exists_mem]
    simp only [List.mem_filter]
  rw [scrapeErrorLines]
  by_cases herror : ∃ b ∈ backends, b.error.isSome
  · have hlines : backends.map scrapeErrorLine =
        ((errorFamily backends).samples.map fun s => Entry.sample scrapeError s.1 s.2).map
          Entry.text := by
      rw [errorFamily, List.map_map, List.map_map]
      exact List.map_congr_left fun b _ => scrapeErrorLine_eq b _ rfl
    rw [if_pos (hcount.mpr herror), if_pos herror, List.flatMap_singleton, Family.entries, hlines]
    rfl
  · rw [if_neg (mt hcount.mp herror), if_neg herror]
    rfl

theorem bandwidthLines_eq (state : MetricsState F) : bandwidthLines state =
    ([rawFamily state, smoothedFamily state].flatMap Family.entries).map Entry.text := rfl

theorem format_eq (state : MetricsState F) : format state = familiesText (families state) := by
  rw [format, familiesText, families, scrapeErrorLines_eq, bandwidthLines_eq]
  simp only [metricLines_eq, List.flatMap_append, List.map_append, List.flatMap_map,
    List.map_flatMap]

end Families

section Metadata

variable {F : Type}

/-- A map that is filled entry by entry has the value of the first entry of each key. -/
theorem getElem?_foldl_insertIfNew {α β : Type} (key : α → List Char) (value : α → β) (l : List α)
    (m : Std.TreeMap (List Char) β) (k : List Char) :
    (l.foldl (fun m a => m.insertIfNew (key a) (value a)) m)[k]? =
      m[k]?.or ((l.find? fun a => key a = k).map value) := by
  induction l generalizing m with
  | nil => simp
  | cons a l ih =>
    rw [List.foldl_cons, ih, Std.TreeMap.getElem?_insertIfNew, List.find?_cons]
    by_cases hkey : key a = k
    · subst hkey
      by_cases hmem : key a ∈ m
      · simp [hmem]
      · simp [hmem]
    · simp [hkey]

theorem getElem?_metadata (backends : List (BackendMetrics F)) (metric : List Char) :
    (metadata backends)[metric]? =
      ((allSamples backends).find? fun p => p.2.metric = metric).map fun p =>
        (p.2.kind, p.1.docs p.2.metric) := by
  have hfold : metadata backends = (allSamples backends).foldl
      (fun m p => m.insertIfNew p.2.metric (p.2.kind, p.1.docs p.2.metric)) ∅ := by
    rw [allSamples, List.foldl_flatMap, metadata]
    simp only [List.foldl_map]
  rw [hfold, getElem?_foldl_insertIfNew]
  simp

theorem nodup_metadata (m : Metadata) : (m.toList.map Prod.fst).Nodup := by
  rw [List.Nodup, List.pairwise_map]
  refine Std.TreeMap.distinct_keys_toList.imp fun hne heq => hne ?_
  rw [heq]
  exact Std.compare_self

theorem find?_allSamples {backends : List (BackendMetrics F)} {metric : List Char}
    {p : BackendMetrics F × RawSample F}
    (h : (allSamples backends).find? (fun p => p.2.metric = metric) = some p) :
    p.1 ∈ backends ∧ p.2 ∈ p.1.samples ∧ p.2.metric = metric := by
  obtain ⟨b, hb, hp⟩ := List.mem_flatMap.mp (List.mem_of_find?_eq_some h)
  obtain ⟨s, hs, rfl⟩ := List.mem_map.mp hp
  exact ⟨hb, hs, by simpa using List.find?_some h⟩

/-- The metrics of a state, with what is known of them. -/
theorem mem_metadata {backends : List (BackendMetrics F)}
    {m : List Char × SampleKind × Option (List Char)} (h : m ∈ (metadata backends).toList) :
    m.2.2 = helpOf backends m.1 ∧
      ∃ b ∈ backends, ∃ s ∈ b.samples, s.metric = m.1 ∧ s.kind = m.2.1 := by
  obtain ⟨metric, kind, help⟩ := m
  rw [Std.TreeMap.mem_toList_iff_getElem?_eq_some, getElem?_metadata, Option.map_eq_some_iff] at h
  obtain ⟨p, hfind, heq⟩ := h
  obtain ⟨rfl, rfl⟩ := Prod.mk.inj heq
  obtain ⟨hb, hs, hmetric⟩ := find?_allSamples hfind
  refine ⟨?_, p.1, hb, p.2, hs, hmetric, rfl⟩
  rw [helpOf, hfind, Option.bind_some, hmetric]

theorem exists_mem_metadata {backends : List (BackendMetrics F)} {b : BackendMetrics F}
    (hb : b ∈ backends) {s : RawSample F} (hs : s ∈ b.samples) :
    ∃ m ∈ (metadata backends).toList, m.1 = s.metric := by
  have hmem : (b, s) ∈ allSamples backends :=
    List.mem_flatMap.mpr ⟨b, hb, List.mem_map_of_mem hs⟩
  obtain ⟨p, hp⟩ : ∃ p, (allSamples backends).find? (fun p => p.2.metric = s.metric) = some p :=
    Option.isSome_iff_exists.mp (List.find?_isSome.mpr ⟨(b, s), hmem, by simp⟩)
  refine ⟨(s.metric, p.2.kind, p.1.docs p.2.metric), ?_, rfl⟩
  rw [Std.TreeMap.mem_toList_iff_getElem?_eq_some, getElem?_metadata, hp]
  rfl

theorem mem_exposed {backends : List (BackendMetrics F)} {p : ℕ × RawSample F} :
    p ∈ exposed backends ↔
      ∃ b ∈ backends, b.error = none ∧ ∃ s ∈ b.samples, (b.slot, s) = p := by
  simp only [exposed, List.mem_flatMap]
  refine exists_congr fun b => and_congr_right fun _ => ?_
  cases b.error <;> simp

end Metadata

section RoundTrip

variable {F : Type} [Number F] {state : MetricsState F}

theorem mem_families {f : Family F} (h : f ∈ families state) :
    (∃ m ∈ (metadata state.backends).toList, metricFamily state.backends m = f) ∨
      f = errorFamily state.backends ∨ f = rawFamily state ∨ f = smoothedFamily state := by
  simp only [families, List.mem_append, List.mem_map, List.mem_cons, List.not_mem_nil,
    or_false] at h
  refine h.imp_right (Or.imp_left fun h => ?_)
  split at h
  · exact List.mem_singleton.mp h
  · cases h

theorem families_named (h : WellNamed state) : ∀ f ∈ families state, f.Named := by
  have hslot : isLabelName "slot".toList = true := by decide
  have hfixed : ∀ metric ∈ [scrapeError, bpsRaw, bpsSmoothed], isMetricName metric = true := by
    decide
  intro f hf
  rcases mem_families hf with ⟨m, hm, rfl⟩ | rfl | rfl | rfl
  · obtain ⟨-, b, hb, s, hs, hmetric, -⟩ := mem_metadata hm
    refine ⟨show isMetricName m.1 = true from hmetric ▸ (h.metric b hb s hs).1, ?_⟩
    simp only [metricFamily, List.mem_map, List.mem_filter]
    rintro - ⟨p, ⟨hp, -⟩, rfl⟩
    obtain ⟨b', hb', -, s', hs', rfl⟩ := mem_exposed.mp hp
    exact List.forall_mem_cons.mpr ⟨hslot, fun l hl => (h.label b' hb' s' hs' l hl).1⟩
  · refine ⟨hfixed scrapeError (by simp), ?_⟩
    simp only [errorFamily, List.mem_map]
    rintro - ⟨b, -, rfl⟩
    exact List.forall_mem_singleton.mpr hslot
  · exact ⟨hfixed bpsRaw (by simp), by simp [rawFamily]⟩
  · exact ⟨hfixed bpsSmoothed (by simp), by simp [smoothedFamily]⟩

theorem families_nodup (h : WellNamed state) : ((families state).map Family.metric).Nodup := by
  have hfixed : ((if ∃ b ∈ state.backends, b.error.isSome then [errorFamily state.backends]
      else []) ++ [rawFamily state, smoothedFamily state]).map Family.metric =
        (if ∃ b ∈ state.backends, b.error.isSome then [scrapeError] else []) ++
          [bpsRaw, bpsSmoothed] := by
    split <;> rfl
  rw [families, List.map_append, hfixed, List.map_map, List.nodup_append]
  refine ⟨nodup_metadata _, by split <;> decide, ?_⟩
  intro metric hmetric metric' hmetric' heq
  obtain ⟨m, hm, rfl⟩ := List.mem_map.mp hmetric
  obtain ⟨-, b, hb, s, hs, hname, -⟩ := mem_metadata hm
  refine (h.metric b hb s hs).2 ?_
  rw [hname, show m.1 = metric' from heq]
  split at hmetric'
  · exact hmetric'
  · exact List.mem_cons_of_mem _ hmetric'

theorem cleanValue_digits (n : ℕ) : CleanValue (Nat.toDigits 10 n) := by
  have hdigit : ∀ c, c.isDigit = false → c ∉ Nat.toDigits 10 n := fun c hc hmem => by
    rw [Nat.isDigit_of_mem_toDigits (by omega) (by omega) hmem] at hc
    cases hc
  exact ⟨hdigit _ (by decide), hdigit _ (by decide), hdigit _ (by decide)⟩

theorem cleanLabels_slot {slot : ℕ} {labels : Labels} (h : ∀ l ∈ labels, l.1 ≠ "slot".toList) :
    CleanLabels (slotLabel slot :: labels) ↔ CleanLabels labels := by
  have hslot : (slotLabel slot).1 ∉ labels.map Prod.fst := fun hmem => by
    obtain ⟨l, hl, heq⟩ := List.mem_map.mp hmem
    exact h l hl heq
  simp only [CleanLabels, List.forall_mem_cons, List.map_cons, List.nodup_cons]
  exact and_congr (and_iff_right (cleanValue_digits slot)) (and_iff_right hslot)

theorem cleanDoc_of_plain {doc : List Char}
    (h : (doc.all fun c => c != '\n' && c != '\\') = true) : CleanDoc doc := by
  have hread : ∀ s : List Char, (s.all fun c => c != '\n' && c != '\\') = true →
      unescapeDoc s = some s := by
    intro s hs
    induction s with
    | nil => rfl
    | cons c s ih =>
      simp only [List.all_cons, Bool.and_eq_true, bne_iff_ne] at hs
      rw [unescapeDoc.eq_5 _ _ (by simp [hs.1.2]) (by simp [hs.1.2]) (by simp [hs.1.2]), ih hs.2]
      rfl
  have hline : '\n' ∉ doc := fun hmem => absurd (List.all_eq_true.mp h _ hmem) (by decide)
  rw [CleanDoc, List.splitOn_eq_singleton hline]
  refine ⟨?_, by simp⟩
  rw [hread _ (List.all_eq_true.mpr fun c hc =>
    List.all_eq_true.mp h c ((List.takeWhile_sublist _).subset hc))]
  rfl

theorem fixed_clean : CleanDoc scrapeErrorHelp ∧ CleanDoc bpsRawHelp ∧ CleanDoc bpsSmoothedHelp :=
  ⟨cleanDoc_of_plain (by decide), cleanDoc_of_plain (by decide), cleanDoc_of_plain (by decide)⟩

/-- The lines of a state need no escape exactly when its labels and help texts do not. -/
theorem families_clean_iff (h : WellNamed state) :
    (∀ f ∈ families state, f.Clean) ↔ Exposable state := by
  have hslot : ∀ {b}, b ∈ state.backends → ∀ {s}, s ∈ b.samples →
      (CleanLabels (slotLabel b.slot :: s.labels) ↔ CleanLabels s.labels) := fun hb _ hs =>
    cleanLabels_slot fun l hl => (h.label _ hb _ hs l hl).2
  have hmetric : ∀ {m}, m ∈ (metadata state.backends).toList →
      metricFamily state.backends m ∈ families state := fun hm =>
    List.mem_append_left _ (List.mem_map_of_mem hm)
  constructor
  · intro hclean
    refine ⟨fun b hb herror s hs => ?_, fun metric doc hdoc => ?_⟩
    · obtain ⟨m, hm, hname⟩ := exists_mem_metadata hb hs
      have hmem : (slotLabel b.slot :: s.labels, valueText s.value) ∈
          (metricFamily state.backends m).samples := by
        refine List.mem_map.mpr ⟨(b.slot, s), List.mem_filter.mpr ⟨?_, by simp [hname]⟩, rfl⟩
        exact mem_exposed.mpr ⟨b, hb, herror, s, hs, rfl⟩
      exact (hslot hb hs).mp ((hclean _ (hmetric hm)).labels _ hmem)
    · obtain ⟨p, hfind, -⟩ := Option.bind_eq_some_iff.mp (Option.mem_def.mp hdoc)
      obtain ⟨hb, hs, rfl⟩ := find?_allSamples hfind
      obtain ⟨m, hm, hname⟩ := exists_mem_metadata hb hs
      rw [← hname, ← (mem_metadata hm).1] at hdoc
      exact (hclean _ (hmetric hm)).doc doc hdoc
  · intro hexposable f hf
    rcases mem_families hf with ⟨m, hm, rfl⟩ | rfl | rfl | rfl
    · refine ⟨fun doc hdoc => ?_, ?_⟩
      · exact hexposable.docs m.1 doc ((mem_metadata hm).1 ▸ hdoc)
      · simp only [metricFamily, List.mem_map, List.mem_filter]
        rintro - ⟨p, ⟨hp, -⟩, rfl⟩
        obtain ⟨b, hb, herror, s, hs, rfl⟩ := mem_exposed.mp hp
        exact (hslot hb hs).mpr (hexposable.labels b hb herror s hs)
    · refine ⟨fun doc hdoc => Option.some.inj hdoc ▸ fixed_clean.1, ?_⟩
      simp only [errorFamily, List.mem_map]
      rintro - ⟨b, -, rfl⟩
      exact (cleanLabels_slot (by simp)).mpr ⟨by simp, List.nodup_nil⟩
    · exact ⟨fun doc hdoc => Option.some.inj hdoc ▸ fixed_clean.2.1, by
        simp [rawFamily, CleanLabels]⟩
    · exact ⟨fun doc hdoc => Option.some.inj hdoc ▸ fixed_clean.2.2, by
        simp [smoothedFamily, CleanLabels]⟩

/-- Members that are taken key by key are all members. -/
theorem perm_flatMap_filter {α κ : Type} [DecidableEq κ] (key : α → κ) {keys : List κ}
    (hnodup : keys.Nodup) (l : List α) (h : ∀ a ∈ l, key a ∈ keys) :
    (keys.flatMap fun k => l.filter fun a => key a = k).Perm l := by
  induction keys generalizing l with
  | nil =>
    rw [List.eq_nil_iff_forall_not_mem.mpr fun a ha => List.not_mem_nil (h a ha)]
    rfl
  | cons k keys ih =>
    obtain ⟨hk, hnodup⟩ := List.nodup_cons.mp hnodup
    have hrest : ∀ a ∈ l.filter (fun a => !decide (key a = k)), key a ∈ keys := fun a ha => by
      obtain ⟨ha, hne⟩ := List.mem_filter.mp ha
      exact (List.mem_cons.mp (h a ha)).resolve_left (by simpa using hne)
    have hsame : (keys.flatMap fun k' => l.filter fun a => key a = k') =
        keys.flatMap fun k' =>
          (l.filter fun a => !decide (key a = k)).filter fun a => key a = k' := by
      refine List.flatMap_congr fun k' hk' => ?_
      rw [List.filter_filter]
      refine List.filter_congr fun a _ => ?_
      by_cases heq : key a = k'
      · have hne : k' ≠ k := fun heq => hk (heq ▸ hk')
        simp [heq, hne]
      · simp [heq]
    rw [List.flatMap_cons, hsame]
    exact ((ih hnodup _ hrest).append_left _).trans (List.filter_append_perm _ l)

/-- The metrics of a state have the samples that are expected of it. -/
theorem perm_expected (h : WellNamed state) :
    ((families state).flatMap Family.values).Perm (expected state) := by
  have hvalues : ∀ m ∈ (metadata state.backends).toList,
      (metricFamily state.backends m).values =
        ((exposed state.backends).filter fun p => p.2.metric = m.1).map fun p =>
          ⟨p.2.metric, slotLabel p.1 :: p.2.labels, p.2.value, p.2.kind.type⟩ := by
    intro m hm
    obtain ⟨-, b, hb, s, hs, hmetric, hkind⟩ := mem_metadata hm
    rw [Family.values, metricFamily, List.map_map]
    refine List.map_congr_left fun p hp => ?_
    obtain ⟨hexposed, hname⟩ := List.mem_filter.mp hp
    obtain ⟨b', hb', -, s', hs', rfl⟩ := mem_exposed.mp hexposed
    have hname : s'.metric = m.1 := by simpa using hname
    have hkind' : s'.kind = m.2.1 :=
      (h.kind b' hb' s' hs' b hb s hs (hname.trans hmetric.symm)).trans hkind
    simp [hname, hkind', valueText]
  have hkeys : ∀ p ∈ exposed state.backends,
      p.2.metric ∈ (metadata state.backends).toList.map Prod.fst := by
    intro p hp
    obtain ⟨b, hb, -, s, hs, rfl⟩ := mem_exposed.mp hp
    obtain ⟨m, hm, hname⟩ := exists_mem_metadata hb hs
    exact List.mem_map.mpr ⟨m, hm, hname⟩
  have hperm := perm_flatMap_filter (fun p : ℕ × RawSample F => p.2.metric)
    (nodup_metadata (metadata state.backends)) (exposed state.backends) hkeys
  rw [families, List.flatMap_append, List.flatMap_map, List.flatMap_congr hvalues,
    ← List.map_flatMap, expected]
  rw [List.flatMap_map] at hperm
  refine (hperm.map _).append (List.Perm.of_eq ?_)
  rw [List.flatMap_append]
  refine congrArg₂ _ ?_ rfl
  split
  · rw [List.flatMap_singleton, Family.values, errorFamily, List.map_map]
    rfl
  · rfl

/-- The text of `format` is a text of the format that has exactly the expected samples, each metric
with one type and its samples right behind it, exactly when nothing in it had to be escaped. -/
theorem format_readsBack_iff (h : WellNamed state) :
    ReadsBack F (format state) (expected state) ↔ Exposable state := by
  have hperm := perm_expected h
  rw [← families_clean_iff h, ← readsBack_iff (families_named h) (families_nodup h), format_eq]
  constructor
  · intro hreads
    exact ⟨hreads.valid, hreads.samples.trans hperm.symm, hreads.typed⟩
  · intro hreads
    exact ⟨hreads.valid, hreads.samples.trans hperm, hreads.typed⟩

end RoundTrip

section Instances

/-- Whole numbers, written in decimal digits. -/
instance : Number ℕ where
  display := Nat.toDigits 10
  parse s := if s = [] then none else Text.digitsValue 10 0 s
  ofNat n := n
  parse_display n := by rw [if_neg Nat.toDigits_ne_nil, Text.digitsValue_toDigits]
  parse_ofNat n _ := by rw [if_neg Nat.toDigits_ne_nil, Text.digitsValue_toDigits]
  display_ne_nil _ := Nat.toDigits_ne_nil
  display_plain _ := display_digits

def commandSample (value : String) : RawSample ℕ :=
  ⟨"ftp_command_total".toList, 3, .counter, [("command".toList, value.toList)]⟩

/-- A backend with a help text, and one whose scrape failed. -/
def oneFailed : MetricsState ℕ where
  backends :=
    [⟨0, [commandSample "quit"], fun _ => some "Total number of commands.".toList, none⟩,
      ⟨1, [], fun _ => none, some "GET failed"⟩]
  scaler_eth0_rx_bps_raw := 4096
  scaler_eth0_rx_bps_smoothed := 2048

theorem oneFailed_readsBack : ReadsBack ℕ (format oneFailed) (expected oneFailed) := by
  refine (format_readsBack_iff ⟨by decide, by decide, by decide⟩).mpr ⟨by decide, ?_⟩
  intro metric doc hdoc
  obtain ⟨p, hfind, hdoc⟩ := Option.bind_eq_some_iff.mp (Option.mem_def.mp hdoc)
  have hp : p ∈ allSamples oneFailed.backends := List.mem_of_find?_eq_some hfind
  obtain rfl := List.mem_singleton.mp hp
  rw [← Option.some.inj hdoc]
  exact cleanDoc_of_plain (by decide)

/-- A backend with a label whose value has a quote in it. -/
def quotedLabel : MetricsState ℕ where
  backends := [⟨0, [commandSample "a\"b"], fun _ => none, none⟩]
  scaler_eth0_rx_bps_raw := 0
  scaler_eth0_rx_bps_smoothed := 0

theorem quotedLabel_not_readsBack :
    WellNamed quotedLabel ∧ ¬ ReadsBack ℕ (format quotedLabel) (expected quotedLabel) := by
  refine ⟨⟨by decide, by decide, by decide⟩, fun hreads => ?_⟩
  -- the value ends at its own quote, and no comma follows
  have hline : "ftp_command_total\x7bslot=\"0\",command=\"a\"b\"\x7d 3".toList ∈
      textLines (format quotedLabel) := by decide +kernel
  exact absurd (hreads.valid.lines _ hline) (by decide)

end Instances

end Aerosuite.Metrics
