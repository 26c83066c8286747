import Aerosuite.Scale.Effects

/-! How `aeroscale` collects a `SystemSnapshot`: the IPVS table of the kernel, the weight files, the
leases with their owners, and the Auto Scaling Group, joined by address. -/

namespace Aerosuite.Scale

open Pool

section Ipvs

/-- `parse_hex_ip`. -/
def parseHexIp (hex : List Char) : Option Ipv4Addr := Text.parseUint 16 (2 ^ 32 - 1) hex

/-- The body of the loop of `ipvs::parse`: the real server of a line, if the line is accepted. -/
def parseRow (line : List Char) : Option IpvsBackend :=
  let trimmed := Text.trim line
  if !("->".toList.isPrefixOf trimmed) then none
  else
    match Text.splitWhitespace trimmed with
    | _ :: addr_port :: _ :: _ :: active :: inactive :: _ =>
      match Text.splitOnce ':' addr_port with
      | none => none
      | some (hex_ip, _) =>
        match parseHexIp hex_ip with
        | none => none
        | some ip => some ⟨ip, (Text.parseU32 active).getD 0, (Text.parseU32 inactive).getD 0⟩
    | _ => none

/-- `ipvs::parse`. -/
def parseIpvs (content : String) : List IpvsBackend :=
  ((Text.lines content.toList).filterMap parseRow).insertionSort fun a b => a.ip ≤ b.ip

/-- `ipvs::read_all`, where a file that cannot be read has no rows. -/
def ipvsOf (content : Except String String) : List IpvsBackend :=
  match content with
  | .ok content => parseIpvs content
  | .error _ => []

end Ipvs

section Asg

/-- `asg::read_all` after the query. -/
def asgOf (groups : List AsgGroup) : Option AsgGroupInfo × List AsgInstance :=
  (groups.head?.map fun g => ⟨g.name, g.desired_capacity, g.min_size, g.max_size⟩,
    (groups.flatMap AsgGroup.instances).insertionSort fun a b => a.instance_id ≤ b.instance_id)

/-- A query that fails shows no group and no instances. -/
def asgOfReply : Except String (List AsgGroup) → Option AsgGroupInfo × List AsgInstance
  | .ok groups => asgOf groups
  | .error _ => (none, [])

end Asg

section Weights

/-- The address of a weight file, if the name is one. -/
def weightIp (name : String) : Option Ipv4Addr :=
  (weightFileIp name).bind fun s => Ipv4Addr.parse s.toList

/-- The loop of `weights::read_all` over the names that are left. -/
def readWeightFiles (failure : Option String) :
    List String → List WeightEntry → Daemon (Except String (List WeightEntry))
  | [], entries =>
    match failure with
    | none => pure (.ok entries)
    | some e => pure (.error e)
  | name :: names, entries =>
    match weightIp name with
    | none => readWeightFiles failure names entries
    | some ip =>
      andThen (context s!"Cannot read weight file: {name}" (eff (.readFile name))) fun raw =>
        readWeightFiles failure names (entries ++ [⟨ip, .fromWeightStr raw⟩])

/-- `weights::read_all`. -/
def readWeights : Daemon (Except String (List WeightEntry)) :=
  andThen (context "Cannot read weights directory" (eff .readDir)) fun dir =>
    andThen (readWeightFiles dir.failure dir.names []) fun entries =>
      pure (.ok (entries.insertionSort fun a b => a.ip ≤ b.ip))

end Weights

section Leases

/-- The last owner that was read for each slot. -/
abbrev OwnerCache := ℕ → Option String

/-- The owner that the result of `GET slot:owner:<n>` stands for, and the cache after it. -/
def resolveOwner (owner_cache : OwnerCache) (slot : ℕ) :
    Except String (Option String) → String × OwnerCache
  | .ok (some id) => (id, Function.update owner_cache slot (some id))
  | .ok none => (OWNER_MISSING, Function.update owner_cache slot none)
  | .error _ =>
    match owner_cache slot with
    | some cached_id => (cached_id, owner_cache)
    | none => (OWNER_UNKNOWN, owner_cache)

/-- The slot number of a member of `slots:leases`. -/
def slotNumber (slot_str : String) : ℕ := (Text.parseU32 slot_str.toList).getD 0

/-- The body of the loop of `leases::read_all`. -/
def readLease (acc : List SlotLease × OwnerCache) (entry : String × ℕ) :
    Daemon (List SlotLease × OwnerCache) := do
  let slot := slotNumber entry.1
  let owner_result ← eff (.redis (.get (.owner entry.1)))
  let (owner, owner_cache) := resolveOwner acc.2 slot owner_result
  pure (acc.1 ++ [⟨slot, owner, entry.2⟩], owner_cache)

/-- `leases::read_all`. -/
def readLeases (owner_cache : OwnerCache) : Daemon (Except String (List SlotLease × OwnerCache)) :=
  andThen (context "ZRANGE slots:leases WITHSCORES failed"
    (eff (.redis (.zrangeWithScores .leases)))) fun raw => do
      let (leases, owner_cache) ← Program.foldEach readLease ([], owner_cache) raw
      pure (.ok (leases.insertionSort fun a b => a.slot ≤ b.slot, owner_cache))

end Leases

section Collect

/-- The lease that `ip_to_lease` holds for an address: the last one that maps to it. -/
def leaseFor (net : SlotNetwork) (leases : List SlotLease) (ip : Ipv4Addr) : Option SlotLease :=
  leases.reverse.find? fun l => net.ipForSlot l.slot = ip

/-- The snapshot that joins what was read. -/
def assemble (net : SlotNetwork) (weights : List WeightEntry) (leases : List SlotLease)
    (asg : Option AsgGroupInfo × List AsgInstance) (ipvs : List IpvsBackend) : SystemSnapshot where
  backends := weights.map fun w =>
    { ip := w.ip
      slot := net.slotForIp w.ip
      weight_state := w.state
      ipvs := ipvs.find? fun i => i.ip = w.ip
      lease := leaseFor net leases w.ip }
  leases := leases
  asg := asg.2
  asg_group := asg.1
  ipvs := ipvs

/-- `SystemSnapshot::collect`, with the owner cache after it. -/
def collect (net : SlotNetwork) (owner_cache : OwnerCache) :
    Daemon (Except String SystemSnapshot × OwnerCache) := do
  match ← readWeights with
  | .error e => pure (.error e, owner_cache)
  | .ok weights =>
    match ← readLeases owner_cache with
    | .error e => pure (.error e, owner_cache)
    | .ok (leases, owner_cache) =>
      let groups ← eff .describeAsg
      let content ← eff .readIpvs
      pure (.ok (assemble net weights leases (asgOfReply groups) (ipvsOf content)), owner_cache)

end Collect

/-- What the snapshot of a cycle is joined from: one weight file for each address, at most one lease
for each slot, the group, and the result of reading the IPVS table. -/
structure Sources where
  net : SlotNetwork
  weights : List WeightEntry
  leases : List SlotLease
  asg : Option AsgGroupInfo × List AsgInstance
  table : Except String String
  distinct_ips : (weights.map WeightEntry.ip).Nodup
  ips_lt : ∀ w ∈ weights, w.ip < 2 ^ 32
  distinct_slots : (leases.map SlotLease.slot).Nodup
  slots_lt : ∀ l ∈ leases, l.slot < 2 ^ 32

def Sources.snapshot (src : Sources) : SystemSnapshot :=
  assemble src.net src.weights src.leases src.asg (ipvsOf src.table)

/-- The backend of a slot's lease. -/
def SystemSnapshot.backendOf (snapshot : SystemSnapshot) (slot : ℕ) : Option BackendStatus :=
  snapshot.backends.find? fun b => b.lease.map SlotLease.slot = some slot

namespace Sources

variable {src : Sources} {b b' : BackendStatus} {l l' : SlotLease}

theorem exists_weight (hb : b ∈ src.snapshot.backends) : ∃ w ∈ src.weights, b =
    { ip := w.ip, slot := src.net.slotForIp w.ip, weight_state := w.state
      ipvs := (ipvsOf src.table).find? fun i => i.ip = w.ip
      lease := leaseFor src.net src.leases w.ip } := by
  obtain ⟨w, hw, rfl⟩ := List.mem_map.mp hb
  exact ⟨w, hw, rfl⟩

theorem backend_ip_lt (hb : b ∈ src.snapshot.backends) : b.ip < 2 ^ 32 := by
  obtain ⟨w, hw, rfl⟩ := exists_weight hb
  exact src.ips_lt w hw

theorem backend_ext (hb : b ∈ src.snapshot.backends) (hb' : b' ∈ src.snapshot.backends)
    (h : b.ip = b'.ip) : b = b' := by
  obtain ⟨w, hw, rfl⟩ := exists_weight hb
  obtain ⟨w', hw', rfl⟩ := exists_weight hb'
  obtain rfl := List.inj_on_of_nodup_map src.distinct_ips hw hw' h
  rfl

theorem lease_ext (hl : l ∈ src.leases) (hl' : l' ∈ src.leases) (h : l.slot = l'.slot) : l = l' :=
  List.inj_on_of_nodup_map src.distinct_slots hl hl' h

theorem lease_eq_some_iff (hb : b ∈ src.snapshot.backends) :
    b.lease = some l ↔ l ∈ src.leases ∧ src.net.ipForSlot l.slot = b.ip := by
  obtain ⟨w, hw, rfl⟩ := exists_weight hb
  constructor
  · intro h
    have hmem := List.mem_of_find?_eq_some h
    exact ⟨List.mem_reverse.mp hmem, by simpa using List.find?_some h⟩
  · rintro ⟨hl, hip⟩
    cases hfind : leaseFor src.net src.leases w.ip with
    | none =>
      have hno := List.find?_eq_none.mp hfind l (List.mem_reverse.mpr hl)
      simp only [decide_eq_true_eq] at hno
      exact absurd hip hno
    | some l' =>
      have hl' := List.mem_reverse.mp (List.mem_of_find?_eq_some hfind)
      have hip' : src.net.ipForSlot l'.slot = w.ip := by simpa using List.find?_some hfind
      have hslot := src.net.ipForSlot_injOn (src.slots_lt l' hl') (src.slots_lt l hl)
        (hip'.trans hip.symm)
      exact congrArg some (lease_ext hl' hl hslot)

theorem backendOf_eq_some_iff (hl : l ∈ src.leases) : src.snapshot.backendOf l.slot = some b ↔
    b ∈ src.snapshot.backends ∧ b.lease = some l := by
  constructor
  · intro h
    have hb := List.mem_of_find?_eq_some h
    have hslot : b.lease.map SlotLease.slot = some l.slot := by simpa using List.find?_some h
    obtain ⟨l', hl', heq⟩ := Option.map_eq_some_iff.mp hslot
    obtain rfl := lease_ext ((lease_eq_some_iff hb).mp hl').1 hl heq
    exact ⟨hb, hl'⟩
  · rintro ⟨hb, hlease⟩
    cases hfind : src.snapshot.backendOf l.slot with
    | none =>
      have hno := List.find?_eq_none.mp hfind b hb
      simp [hlease] at hno
    | some b' =>
      have hb' := List.mem_of_find?_eq_some hfind
      have hslot : b'.lease.map SlotLease.slot = some l.slot := by simpa using List.find?_some hfind
      obtain ⟨l', hl', heq⟩ := Option.map_eq_some_iff.mp hslot
      obtain ⟨hmem', hip'⟩ := (lease_eq_some_iff hb').mp hl'
      obtain rfl := lease_ext hmem' hl heq
      have hip := ((lease_eq_some_iff hb).mp hlease).2
      exact congrArg some (backend_ext hb' hb (hip'.symm.trans hip))

end Sources

section Collected

open Program

theorem weightFileIp_eq_some {name s : String} (h : weightFileIp name = some s) :
    name.toList = "backend-".toList ++ s.toList ++ ".weight".toList := by
  simp only [weightFileIp, Option.map_eq_some_iff, Option.bind_eq_some_iff,
    Text.stripPrefix_eq_some, Text.stripSuffix_eq_some] at h
  obtain ⟨mid, ⟨rest, hpre, rfl⟩, rfl⟩ := h
  rw [hpre]
  simp

theorem weightIp_eq_some {name : String} {ip : Ipv4Addr} (h : weightIp name = some ip) :
    ip < 2 ^ 32 ∧ name = weightFile ip := by
  obtain ⟨s, hs, hip⟩ := Option.bind_eq_some_iff.mp h
  obtain ⟨hlt, hdisplay⟩ := parse_eq_some hip
  refine ⟨hlt, String.toList_inj.mp ?_⟩
  rw [weightFileIp_eq_some hs, hdisplay]
  simp [weightFile]

theorem weightIp_weightFile {ip : Ipv4Addr} (h : ip < 2 ^ 32) :
    weightIp (weightFile ip) = some ip := by
  rw [weightIp, weightFileIp_weightFile, Option.bind_some, String.toList_ofList, parse_display h]

theorem exec_readWeightFiles {failure : Option String} {names : List String}
    {entries es : List WeightEntry} {t : List (Event Eff Eff.Reply)}
    (h : Exec (readWeightFiles failure names entries) t (.ok es)) :
    es.map WeightEntry.ip = entries.map WeightEntry.ip ++ names.filterMap weightIp := by
  induction names generalizing entries t with
  | nil =>
    cases failure with
    | none =>
      obtain ⟨-, heq⟩ := exec_ret.mp h
      cases heq
      simp
    | some e =>
      obtain ⟨-, heq⟩ := exec_ret.mp h
      cases heq
  | cons name names ih =>
    rw [readWeightFiles] at h
    split at h
    · next hnone => rw [List.filterMap_cons_none hnone, ih h]
    · next ip hsome =>
      rcases exec_andThen.mp h with ⟨_, raw, _, _, _, h₂⟩ | ⟨_, _, heq⟩
      · rw [ih h₂, List.filterMap_cons_some hsome]
        simp
      · cases heq

/-- The entries are those of the weight files that the directory lists. -/
theorem exec_readWeights_perm {ws : List WeightEntry} {t : List (Event Eff Eff.Reply)}
    (h : Exec readWeights t (.ok ws)) :
    ∃ dir, ⟨.readDir, .ok dir⟩ ∈ t ∧
      (ws.map WeightEntry.ip).Perm (dir.names.filterMap weightIp) := by
  rcases exec_andThen.mp h with ⟨t₁, dir, t₂, rfl, h₁, h₂⟩ | ⟨_, _, heq⟩
  · rcases exec_andThen.mp h₂ with ⟨t₃, es, t₄, rfl, h₃, h₄⟩ | ⟨_, _, heq⟩
    · obtain ⟨rfl, heq⟩ := exec_ret.mp h₄
      cases heq
      obtain ⟨r, hr, hok⟩ := exec_context.mp h₁
      obtain rfl := exec_perform.mp hr
      refine ⟨dir, by cases r <;> cases hok; simp, ?_⟩
      have hips := exec_readWeightFiles h₃
      rw [List.map_nil, List.nil_append] at hips
      rw [← hips]
      exact (List.perm_insertionSort (fun a b : WeightEntry => a.ip ≤ b.ip) es).map _
    · cases heq
  · cases heq

theorem weight_ip_lt {ws : List WeightEntry} {t : List (Event Eff Eff.Reply)}
    (h : Exec readWeights t (.ok ws)) {w : WeightEntry} (hw : w ∈ ws) : w.ip < 2 ^ 32 := by
  obtain ⟨dir, -, hperm⟩ := exec_readWeights_perm h
  obtain ⟨name, -, hname⟩ := List.mem_filterMap.mp (hperm.mem_iff.mp (List.mem_map_of_mem hw))
  exact (weightIp_eq_some hname).1

theorem exec_readWeights {ws : List WeightEntry} {t : List (Event Eff Eff.Reply)}
    (h : Exec readWeights t (.ok ws))
    (hdir : ∀ dir, ⟨.readDir, .ok dir⟩ ∈ t → dir.names.Nodup) :
    (ws.map WeightEntry.ip).Nodup ∧ ∀ w ∈ ws, w.ip < 2 ^ 32 := by
  refine ⟨?_, fun w hw => weight_ip_lt h hw⟩
  obtain ⟨dir, hmem, hperm⟩ := exec_readWeights_perm h
  rw [hperm.nodup_iff]
  refine (hdir dir hmem).filterMap fun a a' ip ha ha' => ?_
  rw [(weightIp_eq_some ha).2, (weightIp_eq_some ha').2]

theorem slotNumber_slotStr {slot : ℕ} (h : slot < 2 ^ 32) : slotNumber (slotStr slot) = slot := by
  rw [slotNumber, slotStr_toList, Text.parseU32, Text.parseUint_toDigits (by omega),
    Option.getD_some]

/-- The leases that are read have the slots and the expiry times of the entries, in order. -/
theorem exec_readLease_fold {raw : List (String × ℕ)} {acc acc' : List SlotLease × OwnerCache}
    {t : List (Event Eff Eff.Reply)} (h : Exec (foldEach readLease acc raw) t acc') :
    acc'.1.map (fun l => (l.slot, l.expires_ms)) =
      acc.1.map (fun l => (l.slot, l.expires_ms)) ++
        raw.map fun entry => (slotNumber entry.1, entry.2) := by
  induction raw generalizing acc t with
  | nil =>
    obtain ⟨-, rfl⟩ := exec_ret.mp h
    simp
  | cons entry raw ih =>
    obtain ⟨_, acc₁, _, _, h₁, h₂⟩ := exec_bind.mp h
    obtain ⟨_, _, _, h₁⟩ := exec_call.mp h₁
    obtain ⟨-, rfl⟩ := exec_ret.mp h₁
    rw [ih h₂]
    simp

/-- The members of `slots:leases` are the texts of distinct slots. -/
def CanonicalLeases (raw : List (String × ℕ)) : Prop :=
  (raw.map Prod.fst).Nodup ∧ ∀ entry ∈ raw, ∃ slot < 2 ^ 32, entry.1 = slotStr slot

theorem exec_readLeases {cache cache' : OwnerCache} {ls : List SlotLease}
    {t : List (Event Eff Eff.Reply)} (h : Exec (readLeases cache) t (.ok (ls, cache')))
    (hleases : ∀ raw, ⟨.redis (.zrangeWithScores .leases), .ok raw⟩ ∈ t → CanonicalLeases raw) :
    (ls.map SlotLease.slot).Nodup ∧ ∀ l ∈ ls, l.slot < 2 ^ 32 := by
  rcases exec_andThen.mp h with ⟨t₁, raw, t₂, rfl, h₁, h₂⟩ | ⟨_, _, heq⟩
  · obtain ⟨⟨ls', _⟩, h₃, heq⟩ := exec_bind_ret.mp h₂
    cases heq
    obtain ⟨r, hr, hok⟩ := exec_context.mp h₁
    obtain rfl := exec_perform.mp hr
    obtain ⟨hnodup, hcanonical⟩ : CanonicalLeases raw :=
      hleases raw (by cases r <;> cases hok; simp)
    have hslots : ls'.map SlotLease.slot = raw.map fun entry => slotNumber entry.1 := by
      have hpairs := congrArg (List.map Prod.fst) (exec_readLease_fold h₃)
      simpa [Function.comp_def] using hpairs
    have hslots' : ∀ slot ∈ ls'.map SlotLease.slot, slot < 2 ^ 32 ∧
      slotStr slot ∈ raw.map Prod.fst := by
      intro slot hslot
      rw [hslots] at hslot
      obtain ⟨entry, hentry, rfl⟩ := List.mem_map.mp hslot
      obtain ⟨n, hn, heq⟩ := hcanonical entry hentry
      rw [heq, slotNumber_slotStr hn, ← heq]
      exact ⟨hn, List.mem_map_of_mem hentry⟩
    have hperm := List.perm_insertionSort (fun a b : SlotLease => a.slot ≤ b.slot) ls'
    constructor
    · rw [(hperm.map _).nodup_iff, hslots]
      refine List.Nodup.map_on ?_ hnodup.of_map
      intro e he e' he' heq
      obtain ⟨n, hn, hstr⟩ := hcanonical e he
      obtain ⟨n', hn', hstr'⟩ := hcanonical e' he'
      rw [hstr, hstr', slotNumber_slotStr hn, slotNumber_slotStr hn'] at heq
      exact List.inj_on_of_nodup_map hnodup he he' (by rw [hstr, hstr', heq])
    · intro l hl
      exact (hslots' l.slot (List.mem_map_of_mem (hperm.mem_iff.mp hl))).1
  · cases heq

theorem readWeightFiles_always {failure : Option String} {names : List String}
    {entries : List WeightEntry} :
    (readWeightFiles failure names entries).Always fun e => ∃ name, e = .readFile name := by
  induction names generalizing entries with
  | nil => cases failure <;> trivial
  | cons name names ih =>
    rw [readWeightFiles]
    split
    · exact ih
    · exact Always.andThen (Always.context ⟨⟨name, rfl⟩, fun _ => trivial⟩) fun _ => ih

theorem readWeights_always :
    readWeights.Always fun e => e = .readDir ∨ ∃ name, e = .readFile name :=
  Always.andThen (Always.context ⟨.inl rfl, fun _ => trivial⟩) fun _ =>
    Always.andThen (readWeightFiles_always.mono fun _ => .inr) fun _ => trivial

theorem readLeases_always {cache : OwnerCache} :
    (readLeases cache).Always fun e => ∃ c, e = .redis c := by
  refine Always.andThen (Always.context ⟨⟨_, rfl⟩, fun _ => trivial⟩) fun raw => ?_
  refine Always.bind (Always.foldEach (fun acc entry _ => ?_) _) fun _ => trivial
  exact ⟨⟨_, rfl⟩, fun _ => trivial⟩

theorem exec_collect {net : SlotNetwork} {cache cache' : OwnerCache} {snapshot : SystemSnapshot}
    {t : List (Event Eff Eff.Reply)} (h : Exec (collect net cache) t (.ok snapshot, cache')) :
    ∃ t₁ weights t₂ leases groups content,
      t = t₁ ++ (t₂ ++ [⟨.describeAsg, groups⟩, ⟨.readIpvs, content⟩]) ∧
      Exec readWeights t₁ (.ok weights) ∧ Exec (readLeases cache) t₂ (.ok (leases, cache')) ∧
      snapshot = assemble net weights leases (asgOfReply groups) (ipvsOf content) := by
  obtain ⟨t₁, weights, t', rfl, h₁, h'⟩ := exec_bind.mp h
  cases weights with
  | error e =>
    obtain ⟨-, heq⟩ := exec_ret.mp h'
    cases heq
  | ok weights =>
    obtain ⟨t₂, leases, t'', rfl, h₂, h''⟩ := exec_bind.mp h'
    cases leases with
    | error e =>
      obtain ⟨-, heq⟩ := exec_ret.mp h''
      cases heq
    | ok leases =>
      obtain ⟨groups, t₃, rfl, h₃⟩ := exec_call.mp h''
      obtain ⟨content, t₄, rfl, h₄⟩ := exec_call.mp h₃
      obtain ⟨rfl, heq⟩ := exec_ret.mp h₄
      cases heq
      exact ⟨t₁, weights, t₂, leases.1, groups, content, rfl, h₁, h₂, rfl⟩

/-- A snapshot that a cycle collects is joined from sources. -/
theorem collect_sources {net : SlotNetwork} {cache cache' : OwnerCache} {snapshot : SystemSnapshot}
    {t : List (Event Eff Eff.Reply)} (h : Exec (collect net cache) t (.ok snapshot, cache'))
    (hdir : ∀ dir, ⟨.readDir, .ok dir⟩ ∈ t → dir.names.Nodup)
    (hleases : ∀ raw, ⟨.redis (.zrangeWithScores .leases), .ok raw⟩ ∈ t → CanonicalLeases raw) :
    ∃ src : Sources, src.net = net ∧ src.snapshot = snapshot ∧ ⟨.readIpvs, src.table⟩ ∈ t := by
  obtain ⟨t₁, weights, t₂, leases, groups, content, rfl, h₁, h₂, rfl⟩ := exec_collect h
  have hweights := exec_readWeights h₁ fun dir hdir' => hdir dir (by simp [hdir'])
  have hslots := exec_readLeases h₂ fun raw hraw => hleases raw (by simp [hraw])
  exact ⟨⟨net, weights, leases, asgOfReply groups, content, hweights.1, hweights.2, hslots.1,
    hslots.2⟩, rfl, rfl, by simp⟩

end Collected

end Aerosuite.Scale
