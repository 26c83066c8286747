import Aerosuite.Library.Program
import Aerosuite.Library.Query
import Aerosuite.Metrics.Exposition
import Aerosuite.Scale.State

/-! The push of scraped metrics to CloudWatch: the data points of a backend, the request that
carries those of all backends, and what CloudWatch reads in it.  A number with four digits behind
its point is what `fixed` writes; `x + y` and `0` are those of the numbers. -/

namespace Aerosuite.Metrics

open Program Query Scale

/-- A data point, without its time. -/
structure Point (F : Type) where
  name : String
  value : F
  unit : String
  dimensions : List (String × String)

section Source

variable {F : Type} [Add F] [Zero F] (fixed : F → String)

/-- `add_point`. -/
def addPoint (n : ℕ) (point : Point F) (timestamp : String) : Params :=
  let p := s!"MetricData.member.{n}"
  [(s!"{p}.MetricName", point.name), (s!"{p}.Value", fixed point.value),
    (s!"{p}.Unit", point.unit), (s!"{p}.Timestamp", timestamp)] ++
  (point.dimensions.zipIdx 1).flatMap fun ((dim_name, dim_value), d) =>
    [(s!"{p}.Dimensions.member.{d}.Name", dim_name),
      (s!"{p}.Dimensions.member.{d}.Value", dim_value)]

/-- `scalar`: the first sample of the metric without labels. -/
def scalarValue (b : BackendMetrics F) (metric : String) : F :=
  ((b.samples.find? fun s => s.metric = metric.toList ∧ s.labels = []).map RawSample.value).getD 0

/-- `labelled`: the first sample of the metric with these labels. -/
def labelledValue (b : BackendMetrics F) (metric : String) (want : List (String × String)) : F :=
  ((b.samples.find? fun s => s.metric = metric.toList ∧
    ∀ l ∈ want, (l.1.toList, l.2.toList) ∈ s.labels).map RawSample.value).getD 0

/-- The samples that say how many uploads ended with some status. -/
def storTransfers (b : BackendMetrics F) : List (RawSample F) :=
  b.samples.filter fun s => s.metric = "ftp_transferred_total".toList ∧
    ("command".toList, "stor".toList) ∈ s.labels

def statusLabel (s : RawSample F) : String :=
  ((s.labels.find? fun l => l.1 = "status".toList).map fun l => String.ofList l.2).getD "unknown"

/-- The data points of a backend, in the order in which the loop of `push` adds them. -/
def points (b : BackendMetrics F) : List (Point F) :=
  let slot_dim := [("Slot", toString b.slot)]
  [⟨"ActiveSessions", scalarValue b "ftp_sessions_total", "Count", slot_dim⟩,
    ⟨"CumulativeSessions", scalarValue b "ftp_sessions_count", "Count", slot_dim⟩,
    ⟨"BackendWriteBytes", scalarValue b "ftp_backend_write_bytes", "Bytes", slot_dim⟩,
    ⟨"BackendWriteFiles", scalarValue b "ftp_backend_write_files", "Count", slot_dim⟩,
    ⟨"ReceivedBytes", labelledValue b "ftp_received_bytes" [("command", "stor")], "Bytes",
      slot_dim⟩] ++
  ((storTransfers b).map fun s =>
    ⟨"StorTransfers", s.value, "Count", [("Slot", toString b.slot), ("Status", statusLabel s)]⟩) ++
  [⟨"PassiveModeCommands", labelledValue b "ftp_command_total" [("command", "epsv")] +
      labelledValue b "ftp_command_total" [("command", "pasv")], "Count", slot_dim⟩,
    ⟨"StorCommands", labelledValue b "ftp_command_total" [("command", "stor")], "Count", slot_dim⟩,
    ⟨"ResidentMemoryBytes", scalarValue b "process_resident_memory_bytes", "Bytes", slot_dim⟩,
    ⟨"OpenFileDescriptors", scalarValue b "process_open_fds", "Count", slot_dim⟩,
    ⟨"MaxFileDescriptors", scalarValue b "process_max_fds", "Count", slot_dim⟩,
    ⟨"Threads", scalarValue b "process_threads", "Count", slot_dim⟩]

/-- The parameters of the request of `push`. -/
def pushParams (nspace timestamp : String) (active_backends : List (BackendMetrics F)) : Params :=
  (active_backends.foldl
    (fun acc b => (points b).foldl
      (fun (owned, n) point => (owned ++ addPoint fixed n point timestamp, n + 1)) acc)
    ([("Action", "PutMetricData"), ("Version", "2010-08-01"), ("Namespace", nspace)], 1)).1

end Source

section Service

/-- A data point as CloudWatch reads it. -/
structure Datum where
  name : String
  value : String
  unit : String
  timestamp : String
  dimensions : List (String × String)
  deriving DecidableEq

/-- The time series that a data point belongs to: its name and its dimensions. -/
def Datum.series (datum : Datum) : String × List (String × String) :=
  (datum.name, datum.dimensions)

def readDimensions (params : Params) (n : ℕ) : List (String × String) :=
  numbered (fun d => do
    let name ← params.lookup (memberName "MetricData.member" n
      (memberName "Dimensions.member" d "Name"))
    let value ← params.lookup (memberName "MetricData.member" n
      (memberName "Dimensions.member" d "Value"))
    pure (name, value)) params.length 1

/-- The data points that a request has. -/
def readData (params : Params) : List Datum :=
  numbered (fun n => do
    let name ← params.lookup (memberName "MetricData.member" n "MetricName")
    let value ← params.lookup (memberName "MetricData.member" n "Value")
    let unit ← params.lookup (memberName "MetricData.member" n "Unit")
    let timestamp ← params.lookup (memberName "MetricData.member" n "Timestamp")
    pure ⟨name, value, unit, timestamp, readDimensions params n⟩) params.length 1

end Service

section Wire

variable {F : Type} (fixed : F → String)

def dimensionEntries (dimension : String × String) : Params :=
  [("Name", dimension.1), ("Value", dimension.2)]

/-- The fields of a data point in a request. -/
def pointEntries (timestamp : String) (point : Point F) : Params :=
  [("MetricName", point.name), ("Value", fixed point.value), ("Unit", point.unit),
    ("Timestamp", timestamp)] ++ members "Dimensions.member" dimensionEntries 1 point.dimensions

theorem zipIdx_members (n d : ℕ) (dims : List (String × String)) :
    (dims.zipIdx d).flatMap (fun dim => (dimensionEntries dim.1).map fun e =>
      (memberName "MetricData.member" n (memberName "Dimensions.member" dim.2 e.1), e.2)) =
      (members "Dimensions.member" dimensionEntries d dims).map fun e =>
        (memberName "MetricData.member" n e.1, e.2) := by
  induction dims generalizing d with
  | nil => rfl
  | cons dim dims ih =>
    rw [List.zipIdx_cons, List.flatMap_cons, ih, members, List.map_append, List.map_map]
    rfl

theorem addPoint_eq (n : ℕ) (point : Point F) (timestamp : String) :
    addPoint fixed n point timestamp = (pointEntries fixed timestamp point).map fun e =>
      (memberName "MetricData.member" n e.1, e.2) := by
  have hfield : ∀ field : String, "MetricData.member." ++ toString n ++ ("." ++ field) =
      memberName "MetricData.member" n field := fun field =>
    String.toList_injective (by simp [memberName])
  have hdim : ∀ (d : ℕ) (field : String), "MetricData.member." ++ toString n ++
      ".Dimensions.member." ++ toString d ++ ("." ++ field) =
        memberName "MetricData.member" n (memberName "Dimensions.member" d field) := fun d field =>
    String.toList_injective (by simp [memberName])
  rw [pointEntries, List.map_append, ← zipIdx_members n 1 point.dimensions]
  unfold addPoint
  refine congrArg₂ (· ++ ·) ?_ (List.flatMap_congr fun dim _ => ?_)
  · simp only [List.map_cons, List.map_nil, ← hfield]
    rfl
  · exact congrArg₂ (fun a b => [(a, dim.1.1), (b, dim.1.2)]) (hdim dim.2 "Name")
      (hdim dim.2 "Value")

theorem foldl_addPoint (timestamp : String) (ps : List (Point F)) (owned : Params) (n : ℕ) :
    ps.foldl (fun (owned, n) point => (owned ++ addPoint fixed n point timestamp, n + 1))
      (owned, n) =
    (owned ++ members "MetricData.member" (pointEntries fixed timestamp) n ps, n + ps.length) := by
  induction ps generalizing owned n with
  | nil => simp [members]
  | cons p ps ih =>
    rw [List.foldl_cons, ih, addPoint_eq, members, List.append_assoc, List.length_cons,
      Nat.add_right_comm, Nat.add_assoc]

section Request

variable [Add F] [Zero F] (nspace timestamp : String) (active_backends : List (BackendMetrics F))

/-- The members of the request are numbered through over all backends. -/
theorem pushParams_eq : pushParams fixed nspace timestamp active_backends =
    [("Action", "PutMetricData"), ("Version", "2010-08-01"), ("Namespace", nspace)] ++
      members "MetricData.member" (pointEntries fixed timestamp) 1
        (active_backends.flatMap points) := by
  have hfold : ∀ (owned : Params) (n : ℕ), active_backends.foldl
      (fun acc b => (points b).foldl
        (fun (owned, n) point => (owned ++ addPoint fixed n point timestamp, n + 1)) acc)
      (owned, n) =
      (owned ++ members "MetricData.member" (pointEntries fixed timestamp) n
        (active_backends.flatMap points), n + (active_backends.flatMap points).length) := by
    induction active_backends with
    | nil => simp [members]
    | cons b bs ih =>
      intro owned n
      rw [List.foldl_cons, foldl_addPoint, ih, List.flatMap_cons, members_append, List.append_assoc,
        List.length_append, Nat.add_assoc]
  rw [pushParams, hfold]

/-- A field of a data point is found under its name. -/
theorem lookup_point (i : ℕ) (field : String) :
    (pushParams fixed nspace timestamp active_backends).lookup
      (memberName "MetricData.member" (1 + i) field) =
      (active_backends.flatMap points)[i]?.bind fun p =>
        (pointEntries fixed timestamp p).lookup field := by
  have hne : ∀ key : String, key.toList.head? ≠ some 'M' →
      memberName "MetricData.member" (1 + i) field ≠ key := fun key hkey h =>
    hkey (by rw [← h, toList_memberName]; rfl)
  have hhead : [("Action", "PutMetricData"), ("Version", "2010-08-01"),
      ("Namespace", nspace)].lookup (memberName "MetricData.member" (1 + i) field) = none := by
    rw [List.lookup_eq_none_iff]
    simp [hne "Action" (by decide), hne "Version" (by decide), hne "Namespace" (by decide)]
  rw [pushParams_eq, List.lookup_append, lookup_members, hhead, Option.none_or]

end Request

/-- A dimension of a data point is found under its number. -/
theorem lookup_dimension (timestamp : String) (point : Point F) (j : ℕ) (field : String) :
    (pointEntries fixed timestamp point).lookup (memberName "Dimensions.member" (1 + j) field) =
      point.dimensions[j]?.bind fun dim => (dimensionEntries dim).lookup field := by
  have hne : ∀ key : String, key.toList.head? ≠ some 'D' →
      memberName "Dimensions.member" (1 + j) field ≠ key := fun key hkey h =>
    hkey (by rw [← h, toList_memberName]; rfl)
  have hhead : [("MetricName", point.name), ("Value", fixed point.value), ("Unit", point.unit),
      ("Timestamp", timestamp)].lookup (memberName "Dimensions.member" (1 + j) field) = none := by
    rw [List.lookup_eq_none_iff]
    simp [hne "MetricName" (by decide), hne "Value" (by decide), hne "Unit" (by decide),
      hne "Timestamp" (by decide)]
  rw [pointEntries, List.lookup_append, lookup_members, hhead, Option.none_or]

/-- A data point as CloudWatch reads it. -/
def datum (timestamp : String) (point : Point F) : Datum :=
  ⟨point.name, fixed point.value, point.unit, timestamp, point.dimensions⟩

variable [Add F] [Zero F] (nspace timestamp : String) (active_backends : List (BackendMetrics F))

theorem readDimensions_pushParams {i : ℕ} {point : Point F}
    (h : (active_backends.flatMap points)[i]? = some point) :
    readDimensions (pushParams fixed nspace timestamp active_backends) (1 + i) =
      point.dimensions := by
  refine numbered_eq (fun j => ?_) ?_
  · simp only [lookup_point, h, Option.bind_some, lookup_dimension]
    cases point.dimensions[j]? <;> rfl
  · have hentries := length_entries_le "MetricData.member" (pointEntries fixed timestamp) 1
      (List.mem_of_getElem? h)
    have hne : ∀ dim, dimensionEntries dim ≠ [] := by simp [dimensionEntries]
    have hdimensions := length_members_le hne "Dimensions.member" 1 point.dimensions
    rw [pointEntries, List.length_append] at hentries
    rw [pushParams_eq, List.length_append]
    omega

/-- CloudWatch reads the data points of all backends, in order. -/
theorem readData_pushParams :
    readData (pushParams fixed nspace timestamp active_backends) =
      (active_backends.flatMap points).map (datum fixed timestamp) := by
  refine numbered_eq (fun i => ?_) ?_
  · simp only [lookup_point]
    rw [List.getElem?_map]
    cases hpoint : (active_backends.flatMap points)[i]? with
    | none => rfl
    | some point =>
      rw [readDimensions_pushParams fixed nspace timestamp active_backends hpoint]
      rfl
  · have hne : ∀ point, pointEntries fixed timestamp point ≠ [] := by simp [pointEntries]
    have hmembers := length_members_le hne "MetricData.member" 1 (active_backends.flatMap points)
    rw [pushParams_eq, List.length_append, List.length_map]
    omega

end Wire

section Series

variable {F : Type}

/-- The time series of a data point. -/
def Point.series (point : Point F) : String × List (String × String) :=
  (point.name, point.dimensions)

/-- The metrics of a backend with the slot as their only dimension. -/
def slotMetrics : List String :=
  ["ActiveSessions", "CumulativeSessions", "BackendWriteBytes", "BackendWriteFiles",
    "ReceivedBytes", "PassiveModeCommands", "StorCommands", "ResidentMemoryBytes",
    "OpenFileDescriptors", "MaxFileDescriptors", "Threads"]

/-- The series of a backend. -/
def seriesOf (b : BackendMetrics F) : List (String × List (String × String)) :=
  slotMetrics.map (fun name => (name, [("Slot", toString b.slot)])) ++
    (storTransfers b).map fun s =>
      ("StorTransfers", [("Slot", toString b.slot), ("Status", statusLabel s)])

theorem slot_of_mem_seriesOf {b : BackendMetrics F} {series : String × List (String × String)}
    (h : series ∈ seriesOf b) : series.2.head? = some ("Slot", toString b.slot) := by
  rcases List.mem_append.mp h with h | h
  · obtain ⟨name, -, rfl⟩ := List.mem_map.mp h
    rfl
  · obtain ⟨s, -, rfl⟩ := List.mem_map.mp h
    rfl

theorem nodup_seriesOf (b : BackendMetrics F) :
    (seriesOf b).Nodup ↔ ((storTransfers b).map statusLabel).Nodup := by
  have hnames : slotMetrics.Nodup ∧ "StorTransfers" ∉ slotMetrics := by decide
  have hstatus : ((storTransfers b).map fun s => ("StorTransfers",
      [("Slot", toString b.slot), ("Status", statusLabel s)])).Nodup ↔
        ((storTransfers b).map statusLabel).Nodup := by
    have hinj : Function.Injective fun status : String =>
        ("StorTransfers", [("Slot", toString b.slot), ("Status", status)]) := fun _ _ h => by
      simpa using h
    rw [← List.nodup_map_iff hinj, List.map_map]
    rfl
  rw [seriesOf, List.nodup_append, hstatus]
  refine ⟨fun h => h.2.1, fun h => ⟨hnames.1.map fun _ _ h => (Prod.mk.inj h).1, h, ?_⟩⟩
  intro series hseries series' hseries' heq
  obtain ⟨name, hname, rfl⟩ := List.mem_map.mp hseries
  obtain ⟨s, -, rfl⟩ := List.mem_map.mp hseries'
  exact hnames.2 ((Prod.mk.inj heq).1 ▸ hname)

variable [Add F] [Zero F] {active_backends : List (BackendMetrics F)}

theorem perm_seriesOf (b : BackendMetrics F) :
    ((points b).map Point.series).Perm (seriesOf b) := by
  rw [points, List.map_append, List.map_append, List.map_map, List.append_assoc]
  exact (List.perm_append_comm.append_left _).trans (List.Perm.of_eq (List.append_assoc _ _ _).symm)

/-- No two data points of a request belong to one series exactly when the backends have different
slots and the uploads of each different statuses. -/
theorem series_nodup_iff :
    ((active_backends.flatMap points).map Point.series).Nodup ↔
      (active_backends.map BackendMetrics.slot).Nodup ∧
        ∀ b ∈ active_backends, ((storTransfers b).map statusLabel).Nodup := by
  have hperm : ((active_backends.flatMap points).map Point.series).Perm
      (active_backends.flatMap seriesOf) := by
    rw [List.map_flatMap]
    exact List.Perm.flatMap_left _ fun b _ => perm_seriesOf b
  have hslots : (active_backends.map BackendMetrics.slot).Nodup ↔
      active_backends.Pairwise fun b b' => b.slot ≠ b'.slot := List.pairwise_map
  rw [hperm.nodup_iff, List.nodup_flatMap, and_comm, hslots]
  refine and_congr ⟨fun h => h.imp fun {b b'} hdisjoint hslot => ?_,
    fun h => h.imp fun {b b'} hslot => ?_⟩ (forall₂_congr fun b _ => nodup_seriesOf b)
  · have hmem : ∀ b : BackendMetrics F, ("Threads", [("Slot", toString b.slot)]) ∈ seriesOf b :=
      fun b => List.mem_append_left _ (List.mem_map.mpr ⟨"Threads", by decide, rfl⟩)
    exact hdisjoint (hmem b) (hslot ▸ hmem b')
  · intro series hseries hseries'
    have hhead := (slot_of_mem_seriesOf hseries).symm.trans (slot_of_mem_seriesOf hseries')
    exact hslot (toString_injective (by simpa using hhead))

end Series

end Aerosuite.Metrics
