import Aerosuite.Scale.Snapshot

/-! The join of leases and backends by address, which `SystemSnapshot::collect` makes with
`ip_for_slot` and the cleanup reverses by searching for a slot. -/

namespace Aerosuite.Scale

open Program Pool

namespace SlotNetwork

variable {net : SlotNetwork} {slot : ℕ} {ip : Ipv4Addr}

/-- A network whose sums fit into 32 bits has the slots from its first address on. -/
theorem ipForSlot_eq (h : net.base + net.offset + slot < 2 ^ 32) :
    net.ipForSlot slot = net.base + net.offset + slot := Nat.mod_eq_of_lt h

theorem slotForIp_eq_some_iff (h : net.base + net.offset < 2 ^ 32) :
    net.slotForIp ip = some slot ↔ ip = net.base + net.offset + slot := by
  have hfirst : (net.base + net.offset) % 2 ^ 32 = net.base + net.offset := Nat.mod_eq_of_lt h
  simp only [slotForIp, hfirst, Option.ite_none_right_eq_some, Option.some.injEq]
  constructor
  · rintro ⟨hle, hsub⟩
    unfold Ipv4Addr at *
    omega
  · intro heq
    unfold Ipv4Addr at *
    omega

end SlotNetwork

/-- The leases and the backends of a snapshot belong together by the addresses of the slots, in both
directions. -/
structure SlotJoin (net : SlotNetwork) (snapshot : SystemSnapshot) : Prop where
  attached : ∀ b ∈ snapshot.backends, ∀ l ∈ snapshot.leases,
    b.lease = some l ↔ b.ip = net.ipForSlot l.slot
  inverse : ∀ b ∈ snapshot.backends, ∀ l ∈ snapshot.leases,
    b.ip = net.ipForSlot l.slot ↔ net.slotForIp b.ip = some l.slot
  slot : ∀ b ∈ snapshot.backends, ∀ l ∈ snapshot.leases,
    b.lease = some l → b.slot = some l.slot
  once : ∀ b ∈ snapshot.backends, ∀ b' ∈ snapshot.backends, ∀ l,
    b.lease = some l → b'.lease = some l → b = b'
  found : ∀ l ∈ snapshot.leases, ∀ b,
    snapshot.backendOf l.slot = some b ↔ b ∈ snapshot.backends ∧ b.ip = net.ipForSlot l.slot

/-- Lists of distinct addresses and distinct slots are joined. -/
theorem Sources.slotJoin (src : Sources) (hbase : src.net.base + src.net.offset < 2 ^ 32)
    (hfit : ∀ l ∈ src.leases, src.net.base + src.net.offset + l.slot < 2 ^ 32) :
    SlotJoin src.net src.snapshot := by
  have hattached : ∀ b ∈ src.snapshot.backends, ∀ l ∈ src.leases,
      b.lease = some l ↔ b.ip = src.net.ipForSlot l.slot := by
    intro b hb l hl
    rw [lease_eq_some_iff hb]
    exact ⟨fun h => h.2.symm, fun h => ⟨hl, h.symm⟩⟩
  have hinverse : ∀ b ∈ src.snapshot.backends, ∀ l ∈ src.leases,
      b.ip = src.net.ipForSlot l.slot ↔ src.net.slotForIp b.ip = some l.slot := by
    intro b _ l hl
    rw [SlotNetwork.ipForSlot_eq (hfit l hl), SlotNetwork.slotForIp_eq_some_iff hbase]
  refine ⟨hattached, hinverse, ?_, ?_, ?_⟩
  · intro b hb l hl hlease
    have hslot := (hinverse b hb l hl).mp ((hattached b hb l hl).mp hlease)
    obtain ⟨w, -, rfl⟩ := exists_weight hb
    exact hslot
  · intro b hb b' hb' l hlease hlease'
    have hip := ((lease_eq_some_iff hb).mp hlease).2
    have hip' := ((lease_eq_some_iff hb').mp hlease').2
    exact backend_ext hb hb' (hip.symm.trans hip')
  · intro l hl b
    rw [backendOf_eq_some_iff hl]
    constructor
    · rintro ⟨hb, hlease⟩
      exact ⟨hb, (hattached b hb l hl).mp hlease⟩
    · rintro ⟨hb, hip⟩
      exact ⟨hb, (hattached b hb l hl).mpr hip⟩

section Collected

variable {net : SlotNetwork} {cache cache' : OwnerCache} {snapshot : SystemSnapshot}
  {t : List (Event Eff Eff.Reply)}

/-- What a run collects is joined from the listing that it read. -/
theorem collect_listing (h : Exec (collect net cache) t (.ok snapshot, cache')) :
    ∃ dir, ⟨.readDir, .ok dir⟩ ∈ t ∧
      (snapshot.backends.map BackendStatus.ip).Perm (dir.names.filterMap weightIp) := by
  obtain ⟨t₁, weights, t₂, leases, groups, content, rfl, h₁, -, rfl⟩ := exec_collect h
  obtain ⟨dir, hmem, hperm⟩ := exec_readWeights_perm h₁
  refine ⟨dir, by simp [hmem], ?_⟩
  have hips : (assemble net weights leases (asgOfReply groups) (ipvsOf content)).backends.map
      BackendStatus.ip = weights.map WeightEntry.ip := by
    simp [assemble, Function.comp_def]
  rw [hips]
  exact hperm

/-- Every run that collects a snapshot with distinct weight files and distinct slots, all in the
range of the network, joins them by address, and finds the backend of a lease exactly when its
weight file is listed. -/
theorem slot_join (h : Exec (collect net cache) t (.ok snapshot, cache'))
    (hips : (snapshot.backends.map BackendStatus.ip).Nodup)
    (hslots : (snapshot.leases.map SlotLease.slot).Nodup)
    (hbase : net.base + net.offset < 2 ^ 32)
    (hfit : ∀ l ∈ snapshot.leases, net.base + net.offset + l.slot < 2 ^ 32) :
    SlotJoin net snapshot ∧ ∃ dir, ⟨.readDir, .ok dir⟩ ∈ t ∧ ∀ l ∈ snapshot.leases,
      ((snapshot.backendOf l.slot).isSome ↔ weightFile (net.ipForSlot l.slot) ∈ dir.names) := by
  obtain ⟨dir, hmem, hperm⟩ := collect_listing h
  have hlisted : ∀ ip < 2 ^ 32,
      (∃ b ∈ snapshot.backends, b.ip = ip) ↔ weightFile ip ∈ dir.names := by
    intro ip hip
    rw [← List.mem_map, hperm.mem_iff, List.mem_filterMap]
    constructor
    · rintro ⟨name, hname, hweight⟩
      rw [← (weightIp_eq_some hweight).2]
      exact hname
    · intro hname
      exact ⟨_, hname, weightIp_weightFile hip⟩
  obtain ⟨t₁, weights, t₂, leases, groups, content, rfl, h₁, -, rfl⟩ := exec_collect h
  have hjoin : SlotJoin net (assemble net weights leases (asgOfReply groups) (ipvsOf content)) :=
    Sources.slotJoin ⟨net, weights, leases, asgOfReply groups, content,
      by simpa [assemble, Function.comp_def] using hips, fun w hw => weight_ip_lt h₁ hw, hslots,
      fun l hl => lt_of_le_of_lt (Nat.le_add_left _ _) (hfit l hl)⟩ hbase hfit
  refine ⟨hjoin, dir, hmem, fun l hl => ?_⟩
  rw [← hlisted _ (net.ipForSlot_lt l.slot), Option.isSome_iff_exists]
  simp only [hjoin.found l hl]

/-- Two weight files and a README, and leases of slots 0 and 1. -/
def twoFiles : (e : Eff) → e.Reply
  | .readDir => .ok ⟨["README", weightFile 167772180, weightFile 167772182], none⟩
  | .readFile _ => .ok "0\n"
  | .redis (.zrangeWithScores _) => .ok [("0", 2000), ("1", 2000)]
  | .redis (.get _) => .ok (some "i-a")
  | e => okReply e

theorem slot_join_two_files : ∃ snapshot cache,
    (answering twoFiles (collect exampleNet fun _ => none)).2 = (.ok snapshot, cache) ∧
      SlotJoin exampleNet snapshot := by
  have hview : (answering twoFiles (collect exampleNet fun _ => none)).2.1.toOption.map
      (fun s => (s.backends.map BackendStatus.ip, s.leases.map SlotLease.slot)) =
        some ([167772180, 167772182], [0, 1]) := by decide +kernel
  have hrun := exec_answering twoFiles (collect exampleNet fun _ => none)
  generalize answering twoFiles (collect exampleNet fun _ => none) = run at hview hrun
  obtain ⟨t, result, cache⟩ := run
  cases result with
  | error e => cases hview
  | ok snapshot =>
    obtain ⟨hips, hslots⟩ := Prod.mk.inj (Option.some.inj hview)
    have hfit : ∀ l ∈ snapshot.leases, exampleNet.base + exampleNet.offset + l.slot < 2 ^ 32 := by
      intro l hl
      have hslot := List.mem_map_of_mem (f := SlotLease.slot) hl
      rw [hslots] at hslot
      have hle : ∀ slot ∈ [0, 1], exampleNet.base + exampleNet.offset + slot < 2 ^ 32 := by decide
      exact hle _ hslot
    exact ⟨snapshot, cache, rfl,
      (slot_join hrun (hips ▸ by decide) (hslots ▸ by decide) (by decide) hfit).1⟩

end Collected

end Aerosuite.Scale
