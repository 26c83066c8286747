import Aerosuite.Library.Query
import Aerosuite.Metrics.Exposition
import Aerosuite.Scale.SlotJoin

/-! The store behind `/metrics`: the main loop updates it after a snapshot and after a pass of the
scaler, and the text that is served between two updates shows the last of each. -/

namespace Aerosuite.Metrics

open Prometheus Program Scale

def ipvsActive : List Char := "ipvs_active_connections".toList

def ipvsInactive : List Char := "ipvs_inactive_connections".toList

/-- The help texts of the two gauges. -/
def ipvsDocs (metric : List Char) : Option (List Char) :=
  if metric = ipvsActive then
    some "Number of active IPVS connections to this backend (from /proc/net/ip_vs).".toList
  else if metric = ipvsInactive then
    some "Number of inactive IPVS connections to this backend (from /proc/net/ip_vs).".toList
  else none

section Source

variable {F : Type} [Number F]

/-- `new_store`. -/
def newStore : MetricsState F := ⟨[], 0, 0⟩

/-- What the loop of `update_from_ipvs` adds for a backend. -/
def ipvsMetrics (b : BackendStatus) : Option (BackendMetrics F) :=
  match b.slot with
  | none => none
  | some slot =>
    let (active, inactive) :=
      (b.ipvs.map fun i => (i.active_connections, i.inactive_connections)).getD (0, 0)
    some ⟨slot, [⟨ipvsActive, Number.ofNat active, .gauge, []⟩,
      ⟨ipvsInactive, Number.ofNat inactive, .gauge, []⟩], ipvsDocs, none⟩

def updateFromIpvs (snapshot : SystemSnapshot) (state : MetricsState F) : MetricsState F :=
  { state with
    backends := (snapshot.backends.filterMap ipvsMetrics).insertionSort fun a b => a.slot ≤ b.slot }

def updateScalerBandwidth (raw_bps smoothed_bps : UInt64) (state : MetricsState F) :
    MetricsState F :=
  { state with
    scaler_eth0_rx_bps_raw := raw_bps
    scaler_eth0_rx_bps_smoothed := smoothed_bps }

end Source

/-- An update of the store. -/
inductive StoreUpdate where
  | ipvs (snapshot : SystemSnapshot)
  | bandwidth (raw_bps smoothed_bps : UInt64)

namespace StoreUpdate

def snapshot? : StoreUpdate → Option SystemSnapshot
  | .ipvs snapshot => some snapshot
  | .bandwidth .. => none

def bandwidth? : StoreUpdate → Option (UInt64 × UInt64)
  | .ipvs _ => none
  | .bandwidth raw_bps smoothed_bps => some (raw_bps, smoothed_bps)

variable {F : Type} [Number F]

def apply (state : MetricsState F) : StoreUpdate → MetricsState F
  | .ipvs snapshot => updateFromIpvs snapshot state
  | .bandwidth raw_bps smoothed_bps => updateScalerBandwidth raw_bps smoothed_bps state

end StoreUpdate

section Shown

variable {F : Type} [Number F]

/-- The gauges of a snapshot: for each address of a weight file in the range of the slots the
counters that IPVS has for it. -/
def gauges (net : SlotNetwork) (snapshot : SystemSnapshot) : List (Sample F) :=
  snapshot.backends.flatMap fun b =>
    (net.slotForIp b.ip).toList.flatMap fun slot =>
      let counter (of : IpvsBackend → ℕ) :=
        Number.ofNat (((snapshot.ipvs.find? fun i => i.ip = b.ip).map of).getD 0)
      [⟨ipvsActive, [slotLabel slot], counter IpvsBackend.active_connections, .gauge⟩,
        ⟨ipvsInactive, [slotLabel slot], counter IpvsBackend.inactive_connections, .gauge⟩]

/-- What the text shows after the updates. -/
def shown (net : SlotNetwork) (updates : List StoreUpdate) : List (Sample F) :=
  let (raw_bps, smoothed_bps) := (updates.filterMap StoreUpdate.bandwidth?).getLastD (0, 0)
  ((updates.filterMap StoreUpdate.snapshot?).getLast?.toList.flatMap (gauges net)) ++
    [⟨bpsRaw, [], Number.ofNat raw_bps.toNat, .gauge⟩,
      ⟨bpsSmoothed, [], Number.ofNat smoothed_bps.toNat, .gauge⟩]

end Shown

section State

variable {F : Type} [Number F] {state : MetricsState F}

/-- The entry of a backend, with the counters that IPVS has for it. -/
theorem ipvsMetrics_eq_some {b : BackendStatus} {m : BackendMetrics F} :
    ipvsMetrics b = some m ↔ ∃ slot, b.slot = some slot ∧
      m = ⟨slot, [⟨ipvsActive, Number.ofNat ((b.ipvs.map IpvsBackend.active_connections).getD 0),
          .gauge, []⟩,
        ⟨ipvsInactive, Number.ofNat ((b.ipvs.map IpvsBackend.inactive_connections).getD 0),
          .gauge, []⟩], ipvsDocs, none⟩ := by
  cases hslot : b.slot with
  | none => simp [ipvsMetrics, hslot]
  | some slot =>
    cases hipvs : b.ipvs <;> simp [ipvsMetrics, hslot, hipvs, eq_comm]

/-- The store after the updates. -/
theorem foldl_apply (updates : List StoreUpdate) :
    (updates.foldl StoreUpdate.apply (newStore : MetricsState F)) =
      { backends := ((updates.filterMap StoreUpdate.snapshot?).getLast?.toList.flatMap fun s =>
          s.backends.filterMap ipvsMetrics).insertionSort fun a b => a.slot ≤ b.slot
        scaler_eth0_rx_bps_raw :=
          ((updates.filterMap StoreUpdate.bandwidth?).getLastD (0, 0)).1
        scaler_eth0_rx_bps_smoothed :=
          ((updates.filterMap StoreUpdate.bandwidth?).getLastD (0, 0)).2 } := by
  induction updates using List.reverseRecOn with
  | nil => rfl
  | append_singleton updates update ih =>
    rw [List.foldl_append, ih]
    cases update <;> simp [StoreUpdate.apply, updateFromIpvs, updateScalerBandwidth,
      StoreUpdate.snapshot?, StoreUpdate.bandwidth?, List.filterMap_append]

/-- Every entry is one that `update_from_ipvs` makes. -/
def FromIpvs (state : MetricsState F) : Prop := ∀ m ∈ state.backends, ∃ b, ipvsMetrics b = some m

theorem fromIpvs_foldl (updates : List StoreUpdate) :
    FromIpvs (updates.foldl StoreUpdate.apply (newStore : MetricsState F)) := by
  intro m hm
  rw [foldl_apply] at hm
  obtain ⟨s, -, hm⟩ := List.mem_flatMap.mp ((List.mem_insertionSort _).mp hm)
  obtain ⟨b, -, hb⟩ := List.mem_filterMap.mp hm
  exact ⟨b, hb⟩

theorem FromIpvs.wellNamed (h : FromIpvs state) : WellNamed state := by
  have hsample : ∀ m ∈ state.backends, ∀ s ∈ m.samples,
      s.metric ∈ [ipvsActive, ipvsInactive] ∧ s.kind = .gauge ∧ s.labels = [] := by
    intro m hm
    obtain ⟨b, hb⟩ := h m hm
    obtain ⟨slot, -, rfl⟩ := ipvsMetrics_eq_some.mp hb
    simp
  have hnames : ∀ metric ∈ [ipvsActive, ipvsInactive],
      isMetricName metric = true ∧ metric ∉ [scrapeError, bpsRaw, bpsSmoothed] := by decide
  refine ⟨fun m hm s hs => hnames _ (hsample m hm s hs).1, fun m hm s hs l hl => ?_,
    fun m hm s hs m' hm' s' hs' _ => ?_⟩
  · rw [(hsample m hm s hs).2.2] at hl
    cases hl
  · exact (hsample m hm s hs).2.1.trans (hsample m' hm' s' hs').2.1.symm

theorem FromIpvs.exposable (h : FromIpvs state) : Exposable state := by
  refine ⟨fun m hm _ s hs => ?_, fun metric doc hdoc => ?_⟩
  · obtain ⟨b, hb⟩ := h m hm
    obtain ⟨slot, -, rfl⟩ := ipvsMetrics_eq_some.mp hb
    have hlabels : s.labels = [] := by
      simp only [List.mem_cons, List.not_mem_nil, or_false] at hs
      rcases hs with rfl | rfl <;> rfl
    rw [hlabels]
    exact ⟨by simp, List.nodup_nil⟩
  · obtain ⟨p, hfind, hdoc⟩ := Option.bind_eq_some_iff.mp (Option.mem_def.mp hdoc)
    obtain ⟨hm, -, -⟩ := find?_allSamples hfind
    obtain ⟨b, hb⟩ := h p.1 hm
    obtain ⟨slot, -, heq⟩ := ipvsMetrics_eq_some.mp hb
    rw [heq] at hdoc
    simp only [ipvsDocs] at hdoc
    split at hdoc
    · rw [← Option.some.inj hdoc]
      exact cleanDoc_of_plain (by decide)
    · split at hdoc
      · rw [← Option.some.inj hdoc]
        exact cleanDoc_of_plain (by decide)
      · cases hdoc

/-- The text reads back as the samples of the entries. -/
theorem FromIpvs.readsBack (h : FromIpvs state) : ReadsBack F (format state) (expected state) := by
  have hwell := h.wellNamed
  have hreads := readsBack_of_clean (families_named hwell) (families_nodup hwell)
    ((families_clean_iff hwell).mpr h.exposable)
  rw [format_eq]
  exact ⟨hreads.valid, hreads.samples.trans (perm_expected hwell), hreads.typed⟩

end State

section Located

variable {net : SlotNetwork} {snapshot : SystemSnapshot}

/-- The backends have the slots and the counters of their addresses, and the addresses differ. -/
structure Located (net : SlotNetwork) (snapshot : SystemSnapshot) : Prop where
  slot : ∀ b ∈ snapshot.backends, b.slot = net.slotForIp b.ip
  ipvs : ∀ b ∈ snapshot.backends, b.ipvs = snapshot.ipvs.find? fun i => i.ip = b.ip
  distinct : (snapshot.backends.map BackendStatus.ip).Nodup

theorem located_of_collect {cache cache' : OwnerCache} {t : List (Event Eff Eff.Reply)}
    (h : Exec (collect net cache) t (.ok snapshot, cache'))
    (hnames : ∀ dir, ⟨.readDir, .ok dir⟩ ∈ t → dir.names.Nodup) : Located net snapshot := by
  obtain ⟨t₁, weights, t₂, leases, groups, content, rfl, h₁, -, rfl⟩ := exec_collect h
  have hweights := exec_readWeights h₁ fun dir hdir => hnames dir (by simp [hdir])
  refine ⟨?_, ?_, ?_⟩
  · exact List.forall_mem_map.mpr fun w _ => rfl
  · exact List.forall_mem_map.mpr fun w _ => rfl
  · simpa [assemble, Function.comp_def] using hweights.1

theorem slotForIp_inj {ip ip' : Ipv4Addr} {slot : ℕ} (h : net.slotForIp ip = some slot)
    (h' : net.slotForIp ip' = some slot) : ip = ip' := by
  simp only [SlotNetwork.slotForIp, Option.ite_none_right_eq_some, Option.some.injEq] at h h'
  unfold Ipv4Addr at *
  omega

theorem slotLabel_injective : Function.Injective slotLabel := fun _ _ h =>
  Query.digits_injective (Prod.mk.inj h).2

variable {F : Type} [Number F]

/-- The gauges are the samples of the entries that are made for the snapshot. -/
theorem Located.map_exposed (h : Located net snapshot) :
    (exposed (snapshot.backends.filterMap (ipvsMetrics (F := F)))).map (fun p =>
      (⟨p.2.metric, slotLabel p.1 :: p.2.labels, p.2.value, p.2.kind.type⟩ : Sample F)) =
        gauges net snapshot := by
  rw [exposed, gauges, List.filterMap_eq_flatMap_toList, List.flatMap_assoc, List.map_flatMap]
  refine List.flatMap_congr fun b hb => ?_
  rw [← h.slot b hb, ← h.ipvs b hb]
  cases hslot : b.slot with
  | none => simp [ipvsMetrics, hslot]
  | some slot =>
    have hentry := (ipvsMetrics_eq_some (F := F)).mpr ⟨slot, hslot, rfl⟩
    rw [hentry]
    rfl

/-- Each gauge is shown once. -/
theorem Located.nodup (h : Located net snapshot) :
    ((gauges net snapshot : List (Sample F)).map fun s => (s.metric, s.labels)).Nodup := by
  have hkeys : (gauges net snapshot : List (Sample F)).map (fun s => (s.metric, s.labels)) =
      snapshot.backends.flatMap fun b => (net.slotForIp b.ip).toList.flatMap fun slot =>
        [(ipvsActive, [slotLabel slot]), (ipvsInactive, [slotLabel slot])] := by
    rw [gauges, List.map_flatMap]
    refine List.flatMap_congr fun b _ => ?_
    cases net.slotForIp b.ip <;> rfl
  have hactive : ipvsActive ≠ ipvsInactive := by decide
  rw [hkeys, List.nodup_flatMap]
  refine ⟨fun b _ => ?_, (List.pairwise_map.mp h.distinct).imp fun {b b'} hne => ?_⟩
  · cases net.slotForIp b.ip <;> simp [hactive]
  · refine List.disjoint_left.mpr fun key hkey hkey' => ?_
    simp only [List.mem_flatMap, Option.mem_toList, List.mem_cons, List.not_mem_nil,
      or_false] at hkey hkey'
    obtain ⟨slot, hslot, hkey⟩ := hkey
    obtain ⟨slot', hslot', hkey'⟩ := hkey'
    have hsame : slot = slot' := by
      rcases hkey with rfl | rfl <;>
        simpa [slotLabel_injective.eq_iff, hactive, hactive.symm] using hkey'
    exact hne (slotForIp_inj hslot (hsame ▸ hslot'))

end Located

section Runs

variable {F : Type} [Number F] {net : SlotNetwork} {updates : List StoreUpdate}

theorem mem_of_last {snapshot : SystemSnapshot}
    (h : (updates.filterMap StoreUpdate.snapshot?).getLast? = some snapshot) :
    .ipvs snapshot ∈ updates := by
  obtain ⟨update, hupdate, hsnapshot⟩ := List.mem_filterMap.mp (List.mem_of_getLast? h)
  cases update with
  | ipvs s => exact Option.some.inj hsnapshot ▸ hupdate
  | bandwidth => cases hsnapshot

theorem expected_perm_shown (h : ∀ snapshot, .ipvs snapshot ∈ updates → Located net snapshot) :
    (expected (updates.foldl StoreUpdate.apply (newStore : MetricsState F))).Perm
      (shown net updates) := by
  have herror : ∀ m ∈ (updates.foldl StoreUpdate.apply (newStore : MetricsState F)).backends,
      m.error.isSome = false := by
    intro m hm
    obtain ⟨b, hb⟩ := fromIpvs_foldl updates m hm
    obtain ⟨slot, -, rfl⟩ := ipvsMetrics_eq_some.mp hb
    rfl
  rw [expected, if_neg (by simpa using herror), foldl_apply]
  refine List.Perm.append ?_ (List.Perm.refl _)
  refine (((List.perm_insertionSort _ _).flatMap_right _).map _).trans (List.Perm.of_eq ?_)
  cases hlast : (updates.filterMap StoreUpdate.snapshot?).getLast? with
  | none => rfl
  | some snapshot =>
    have hlocated := h snapshot (mem_of_last hlast)
    simpa [exposed] using hlocated.map_exposed (F := F)

theorem labels_ne_nil {snapshot : SystemSnapshot} {s : Sample F} (h : s ∈ gauges net snapshot) :
    s.labels ≠ [] := by
  obtain ⟨b, -, h⟩ := List.mem_flatMap.mp h
  obtain ⟨slot, -, h⟩ := List.mem_flatMap.mp h
  simp only [List.mem_cons, List.not_mem_nil, or_false] at h
  rcases h with rfl | rfl <;> simp

/-- No series is shown twice. -/
theorem shown_nodup (h : ∀ snapshot, .ipvs snapshot ∈ updates → Located net snapshot) :
    ((shown net updates : List (Sample F)).map fun s => (s.metric, s.labels)).Nodup := by
  have hfixed : bpsRaw ≠ bpsSmoothed := by decide
  rw [shown, List.map_append, List.nodup_append]
  refine ⟨?_, by simp [hfixed], ?_⟩
  · cases hlast : (updates.filterMap StoreUpdate.snapshot?).getLast? with
    | none => simp
    | some snapshot => simpa using (h snapshot (mem_of_last hlast)).nodup (F := F)
  · intro key hkey key' hkey' heq
    obtain ⟨s, hs, rfl⟩ := List.mem_map.mp hkey
    obtain ⟨snapshot, -, hs⟩ := List.mem_flatMap.mp hs
    simp only [List.map_cons, List.map_nil, List.mem_cons, List.not_mem_nil, or_false] at hkey'
    rcases hkey' with rfl | rfl
    · exact labels_ne_nil hs (congrArg Prod.snd heq)
    · exact labels_ne_nil hs (congrArg Prod.snd heq)

/-- Whatever updates the store has seen, the text that is served is a text in the format, and its
samples are the two gauges of each address of the last snapshot with a slot, with the counters that
IPVS has for it, and the last bandwidth.  No series is shown twice. -/
theorem metrics_show_last
    (h : ∀ snapshot, .ipvs snapshot ∈ updates → ∃ cache cache' t,
      Exec (collect net cache) t (.ok snapshot, cache') ∧
        ∀ dir, ⟨.readDir, .ok dir⟩ ∈ t → dir.names.Nodup) :
    ReadsBack F (format (updates.foldl StoreUpdate.apply (newStore : MetricsState F)))
      (shown net updates) ∧
      ((shown net updates : List (Sample F)).map fun s => (s.metric, s.labels)).Nodup := by
  have hlocated : ∀ snapshot, .ipvs snapshot ∈ updates → Located net snapshot := by
    intro snapshot hupdate
    obtain ⟨cache, cache', t, hexec, hnames⟩ := h snapshot hupdate
    exact located_of_collect hexec hnames
  have hreads := (fromIpvs_foldl (F := F) updates).readsBack
  exact ⟨⟨hreads.valid, hreads.samples.trans (expected_perm_shown hlocated), hreads.typed⟩,
    shown_nodup hlocated⟩

/-- A snapshot of two weight files, then a bandwidth. -/
theorem metrics_show_last_two_files : ∃ snapshot cache,
    (answering twoFiles (collect exampleNet fun _ => none)).2 = (.ok snapshot, cache) ∧
      ReadsBack ℕ (format ([.ipvs snapshot, .bandwidth 4096 2048].foldl StoreUpdate.apply
          (newStore : MetricsState ℕ)))
        (shown exampleNet [.ipvs snapshot, .bandwidth 4096 2048]) := by
  have hview : (answering twoFiles (collect exampleNet fun _ => none)).2.1.toOption.isSome := by
    decide +kernel
  have hnames : ∀ ev ∈ (answering twoFiles (collect exampleNet fun _ => none)).1,
      ∀ dir, ev = ⟨.readDir, .ok dir⟩ → dir.names.Nodup := by
    refine forall_mem_answering (fun e dir heq => ?_) _
    cases e <;> cases heq
    decide +kernel
  have hrun := exec_answering twoFiles (collect exampleNet fun _ => none)
  generalize answering twoFiles (collect exampleNet fun _ => none) = run at hview hnames hrun
  obtain ⟨t, result, cache⟩ := run
  cases result with
  | error e => cases hview
  | ok snapshot =>
    refine ⟨snapshot, cache, rfl, (metrics_show_last fun s hs => ?_).1⟩
    obtain rfl : s = snapshot := by simpa using hs
    exact ⟨_, cache, t, hrun, fun dir hdir => hnames _ hdir dir rfl⟩

end Runs

end Aerosuite.Metrics
