import Aerosuite.Scale.Snapshot

/-! What one weight file that cannot be read does to `weights::read_all` and to the snapshot of the
cycle. -/

namespace Aerosuite.Scale

open Program Pool

/-- A directory that can be listed, and what the reading of each of its files gives.  A name that is
not UTF-8 is listed with replacement characters, so only the weight files have distinct names. -/
structure WeightDir where
  names : List String
  content : String → Except String String
  distinct : (names.filter fun name => (weightIp name).isSome).Nodup

/-- The weights directory answers as it is, and everything else in some way. -/
def WeightDir.reply (dir : WeightDir) (other : (e : Eff) → e.Reply) : (e : Eff) → e.Reply
  | .readDir => .ok ⟨dir.names, none⟩
  | .readFile name => dir.content name
  | e => other e

/-- The entry of a file, if it is a weight file that can be read. -/
def WeightDir.entry (dir : WeightDir) (name : String) : Option WeightEntry :=
  (weightIp name).bind fun ip =>
    (dir.content name).toOption.map fun raw => ⟨ip, .fromWeightStr raw⟩

/-- Every weight file of the directory can be read. -/
def WeightDir.Readable (dir : WeightDir) : Prop :=
  ∀ ip < 2 ^ 32, weightFile ip ∈ dir.names → (dir.content (weightFile ip)).isOk

/-- The entries are those of the files that are named after an address and can be read, one for each
and in the order of the addresses. -/
structure WeightDir.Entries (dir : WeightDir) (entries : List WeightEntry) : Prop where
  mem_iff : ∀ w, w ∈ entries ↔ w.ip < 2 ^ 32 ∧ weightFile w.ip ∈ dir.names ∧
    ∃ raw, dir.content (weightFile w.ip) = .ok raw ∧ w.state = .fromWeightStr raw
  sorted : entries.Pairwise fun a b => a.ip < b.ip

/-- A file that cannot be read is left out, and the snapshot is collected if the leases can be
listed. -/
def WeightDir.SkipsUnreadable (dir : WeightDir) (other : (e : Eff) → e.Reply) (net : SlotNetwork)
    (cache : OwnerCache) : Prop :=
  (∃ entries, (answering (dir.reply other) readWeights).2 = .ok entries ∧ dir.Entries entries) ∧
    ((other (.redis (.zrangeWithScores .leases))).isOk →
      (answering (dir.reply other) (collect net cache)).2.1.isOk)

section Answers

variable {α β : Type} {ρ : (e : Eff) → e.Reply}

theorem answering_andThen_ok {p : Daemon (Except String α)} {a : α}
    (f : α → Daemon (Except String β)) (h : (answering ρ p).2 = .ok a) :
    (answering ρ (andThen p f)).2 = (answering ρ (f a)).2 := by
  rw [andThen, answering_bind, h]

theorem answering_andThen_error {p : Daemon (Except String α)} {e : String}
    (f : α → Daemon (Except String β)) (h : (answering ρ p).2 = .error e) :
    (answering ρ (andThen p f)).2 = .error e := by
  rw [andThen, answering_bind, h]
  rfl

theorem answering_context (text : String) (p : Daemon (Except String α)) :
    (answering ρ (context text p)).2 = (answering ρ p).2.mapError fun e => s!"{text}: {e}" := by
  rw [context, answering_bind]
  cases (answering ρ p).2 <;> rfl

end Answers

section Files

variable {dir : WeightDir} {other : (e : Eff) → e.Reply}

theorem readable_of_names (h : dir.Readable) {name : String} {ip : Ipv4Addr}
    (hname : name ∈ dir.names) (hip : weightIp name = some ip) : (dir.content name).isOk := by
  obtain ⟨hlt, rfl⟩ := weightIp_eq_some hip
  exact h ip hlt hname

/-- The loop goes over all files if each weight file can be read. -/
theorem answering_readWeightFiles {names : List String} (hmem : ∀ name ∈ names, name ∈ dir.names)
    (h : dir.Readable) (entries : List WeightEntry) :
    (answering (dir.reply other) (readWeightFiles none names entries)).2 =
      .ok (entries ++ names.filterMap dir.entry) := by
  induction names generalizing entries with
  | nil => simp [readWeightFiles]
  | cons name names ih =>
    have htail := ih fun n hn => hmem n (List.mem_cons_of_mem _ hn)
    rw [readWeightFiles]
    split
    · next hnone =>
      rw [htail, List.filterMap_cons_none (by simp [WeightDir.entry, hnone])]
    · next ip hip =>
      have hok := readable_of_names h (hmem name List.mem_cons_self) hip
      cases hcontent : dir.content name with
      | error e =>
        rw [hcontent] at hok
        cases hok
      | ok raw =>
        have hread : (answering (dir.reply other)
            (context s!"Cannot read weight file: {name}" (eff (.readFile name)))).2 = .ok raw := by
          rw [answering_context]
          show (dir.content name).mapError _ = _
          rw [hcontent]
          rfl
        have hentry : dir.entry name = some ⟨ip, .fromWeightStr raw⟩ := by
          simp [WeightDir.entry, hip, hcontent, Except.toOption]
        rw [answering_andThen_ok _ hread, htail, List.filterMap_cons_some hentry,
          List.append_assoc]
        rfl

/-- The loop ends with an error at a weight file that cannot be read. -/
theorem readable_of_answering {names : List String} {entries es : List WeightEntry}
    (h : (answering (dir.reply other) (readWeightFiles none names entries)).2 = .ok es)
    {name : String} (hname : name ∈ names) {ip : Ipv4Addr} (hip : weightIp name = some ip) :
    (dir.content name).isOk := by
  induction names generalizing entries with
  | nil => cases hname
  | cons head names ih =>
    rw [readWeightFiles] at h
    split at h
    · next hnone =>
      rcases List.mem_cons.mp hname with rfl | hname
      · simp [hnone] at hip
      · exact ih h hname
    · next ip' _ =>
      have hread : (answering (dir.reply other)
          (context s!"Cannot read weight file: {head}" (eff (.readFile head)))).2 =
            (dir.content head).mapError fun e => s!"Cannot read weight file: {head}: {e}" :=
        answering_context _ _
      cases hcontent : dir.content head with
      | error e =>
        rw [hcontent] at hread
        rw [answering_andThen_error _ hread] at h
        cases h
      | ok raw =>
        rw [hcontent] at hread
        rw [answering_andThen_ok _ hread] at h
        rcases List.mem_cons.mp hname with rfl | hname
        · rw [hcontent]
          rfl
        · exact ih h hname

theorem entry_eq_some {name : String} {w : WeightEntry} : dir.entry name = some w ↔
    weightIp name = some w.ip ∧
      ∃ raw, dir.content name = .ok raw ∧ w.state = .fromWeightStr raw := by
  obtain ⟨ip, state⟩ := w
  cases hip : weightIp name with
  | none => simp [WeightDir.entry, hip]
  | some ip' =>
    cases hcontent : dir.content name with
    | error e => simp [WeightDir.entry, hip, hcontent, Except.toOption]
    | ok raw => simp [WeightDir.entry, hip, hcontent, Except.toOption, eq_comm]

theorem mem_entries {w : WeightEntry} : w ∈ dir.names.filterMap dir.entry ↔
    w.ip < 2 ^ 32 ∧ weightFile w.ip ∈ dir.names ∧
      ∃ raw, dir.content (weightFile w.ip) = .ok raw ∧ w.state = .fromWeightStr raw := by
  rw [List.mem_filterMap]
  constructor
  · rintro ⟨name, hname, hentry⟩
    obtain ⟨hip, hraw⟩ := entry_eq_some.mp hentry
    obtain ⟨hlt, rfl⟩ := weightIp_eq_some hip
    exact ⟨hlt, hname, hraw⟩
  · rintro ⟨hlt, hname, hraw⟩
    exact ⟨_, hname, entry_eq_some.mpr ⟨weightIp_weightFile hlt, hraw⟩⟩

theorem nodup_entries (dir : WeightDir) :
    ((dir.names.filterMap dir.entry).map WeightEntry.ip).Nodup := by
  have hfilter : dir.names.filterMap dir.entry =
      (dir.names.filter fun name => (weightIp name).isSome).filterMap dir.entry := by
    rw [List.filterMap_filter]
    refine List.filterMap_congr fun name _ => ?_
    split
    · rfl
    · next h => simp [WeightDir.entry, Option.not_isSome_iff_eq_none.mp h]
  rw [hfilter, List.map_filterMap]
  refine dir.distinct.filterMap fun a a' ip ha ha' => ?_
  obtain ⟨w, hw, rfl⟩ := Option.map_eq_some_iff.mp ha
  obtain ⟨w', hw', heq⟩ := Option.map_eq_some_iff.mp ha'
  rw [(weightIp_eq_some (entry_eq_some.mp hw).1).2, (weightIp_eq_some (entry_eq_some.mp hw').1).2,
    heq]

theorem entries_insertionSort (dir : WeightDir) :
    dir.Entries ((dir.names.filterMap dir.entry).insertionSort fun a b => a.ip ≤ b.ip) := by
  have hperm := List.perm_insertionSort (fun a b : WeightEntry => a.ip ≤ b.ip)
    (dir.names.filterMap dir.entry)
  constructor
  · intro w
    rw [hperm.mem_iff, mem_entries]
  · have hle := List.pairwise_insertionSort (fun a b : WeightEntry => a.ip ≤ b.ip)
      (dir.names.filterMap dir.entry)
    have hne := List.pairwise_map.mp ((hperm.map WeightEntry.ip).nodup_iff.mpr (nodup_entries dir))
    exact (hle.and hne).imp fun h => lt_of_le_of_ne h.1 h.2

end Files

section Snapshot

variable {dir : WeightDir} {other : (e : Eff) → e.Reply}

theorem answering_readDir : (answering (dir.reply other)
    (context "Cannot read weights directory" (eff .readDir))).2 = .ok ⟨dir.names, none⟩ :=
  answering_context _ _

theorem answering_readWeights (other : (e : Eff) → e.Reply) (h : dir.Readable) :
    (answering (dir.reply other) readWeights).2 =
      .ok ((dir.names.filterMap dir.entry).insertionSort fun a b => a.ip ≤ b.ip) := by
  rw [readWeights, answering_andThen_ok _ answering_readDir, answering_andThen_ok _
    (answering_readWeightFiles (fun _ hname => hname) h [])]
  rfl

theorem readable_of_readWeights {entries : List WeightEntry}
    (h : (answering (dir.reply other) readWeights).2 = .ok entries) : dir.Readable := by
  intro ip hip hname
  rw [readWeights, answering_andThen_ok _ answering_readDir] at h
  cases hfiles : (answering (dir.reply other) (readWeightFiles none dir.names [])).2 with
  | error e =>
    rw [answering_andThen_error _ hfiles] at h
    cases h
  | ok es => exact readable_of_answering hfiles hname (weightIp_weightFile hip)

/-- The leases are read whenever they can be listed. -/
theorem answering_readLeases {ρ : (e : Eff) → e.Reply} (cache : OwnerCache)
    (h : (ρ (.redis (.zrangeWithScores .leases))).isOk) :
    (answering ρ (readLeases cache)).2.isOk := by
  cases hlist : ρ (.redis (.zrangeWithScores .leases)) with
  | error e =>
    rw [hlist] at h
    cases h
  | ok raw =>
    have hread : (answering ρ (context "ZRANGE slots:leases WITHSCORES failed"
        (eff (.redis (.zrangeWithScores .leases))))).2 = .ok raw := by
      rw [answering_context]
      show (ρ (.redis (.zrangeWithScores .leases))).mapError _ = _
      rw [hlist]
      rfl
    rw [readLeases, answering_andThen_ok _ hread, answering_bind]
    rfl

theorem answering_collect {ρ : (e : Eff) → e.Reply} {entries : List WeightEntry}
    (hweights : (answering ρ readWeights).2 = .ok entries) (net : SlotNetwork) (cache : OwnerCache)
    (hleases : (answering ρ (readLeases cache)).2.isOk) :
    (answering ρ (collect net cache)).2.1.isOk := by
  rw [collect, answering_bind, hweights]
  simp only
  rw [answering_bind]
  cases hread : (answering ρ (readLeases cache)).2 with
  | error e =>
    rw [hread] at hleases
    cases hleases
  | ok leases => rfl

end Snapshot

/-- A weight file that cannot be read is left out exactly when there is none: it ends the reading of
all others, and the cycle has no snapshot. -/
theorem skipsUnreadable_iff (dir : WeightDir) (other : (e : Eff) → e.Reply) (net : SlotNetwork)
    (cache : OwnerCache) : dir.SkipsUnreadable other net cache ↔ dir.Readable := by
  constructor
  · rintro ⟨⟨entries, hread, -⟩, -⟩
    exact readable_of_readWeights hread
  · intro h
    have hread := answering_readWeights other h
    exact ⟨⟨_, hread, entries_insertionSort dir⟩, fun hleases =>
      answering_collect hread net cache (answering_readLeases cache hleases)⟩

/-- The first of two weight files is not UTF-8. -/
def oneCorrupt : WeightDir where
  names := [weightFile 167772180, weightFile 167772182]
  content name := if name = weightFile 167772180 then .error "stream did not contain valid UTF-8"
    else .ok "0"
  distinct := by decide +kernel

theorem corrupt_file_ends_cycle :
    ¬ oneCorrupt.SkipsUnreadable okReply exampleNet (fun _ => none) ∧
      (answering (oneCorrupt.reply okReply) (collect exampleNet fun _ => none)).2.1.isOk =
        false := by
  refine ⟨?_, by decide +kernel⟩
  rintro ⟨⟨entries, hread, -⟩, -⟩
  have hfails : (answering (oneCorrupt.reply okReply) readWeights).2.isOk = false := by
    decide +kernel
  rw [hread] at hfails
  cases hfails

end Aerosuite.Scale
