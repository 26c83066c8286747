import Aerosuite.Scale.Orphans

/-! What the master does in a cycle about slots whose owner it could not read.  `Refreshes` is a run
of cycles with any replies, and `refreshes_spare_iff` says when all its cycles leave such slots and
their holders alone. -/

namespace Aerosuite.Scale

open Pool Program

/-- The owner that a read stands for, given the owner cached for the slot. -/
def readOwner (cached : Option String) : Except String (Option String) → String
  | .ok (some id) => id
  | .ok none => OWNER_MISSING
  | .error _ => cached.getD OWNER_UNKNOWN

/-- The event of reading the owner of a slot. -/
def ownerRead (slot : ℕ) (r : Except String (Option String)) : Event Eff Eff.Reply :=
  ⟨.redis (.get (.owner (slotStr slot))), r⟩

section Reads

variable {net : SlotNetwork} {cache cache' : OwnerCache} {t : List (Event Eff Eff.Reply)}

theorem resolveOwner_fst (slot : ℕ) (r : Except String (Option String)) :
    (resolveOwner cache slot r).1 = readOwner (cache slot) r := by
  rcases r with e | _ | id
  · cases hcache : cache slot <;> simp [resolveOwner, readOwner, hcache]
  · rfl
  · rfl

theorem resolveOwner_snd_of_ne {slot slot' : ℕ} (r : Except String (Option String))
    (h : slot' ≠ slot) : (resolveOwner cache slot r).2 slot' = cache slot' := by
  rcases r with e | _ | id
  · cases hcache : cache slot <;> simp [resolveOwner, hcache]
  · exact Function.update_of_ne h _ _
  · exact Function.update_of_ne h _ _

theorem ownerRead_inj {slot slot' : ℕ} {r r' : Except String (Option String)}
    (h : ownerRead slot r = ownerRead slot' r') : slot = slot' ∧ r = r' := by
  obtain ⟨hop, hreply⟩ := Event.mk.inj h
  have hslot : slot = slot' := slotStr_injective (by simpa using hop)
  subst hslot
  exact ⟨rfl, eq_of_heq hreply⟩

theorem readLease_slotStr {slot : ℕ} (h : slot < 2 ^ 32) (acc : List SlotLease × OwnerCache)
    (expiry : ℕ) : readLease acc (slotStr slot, expiry) =
      .call (.redis (.get (.owner (slotStr slot)))) fun r =>
        .ret (acc.1 ++ [⟨slot, readOwner (acc.2 slot) r, expiry⟩],
          (resolveOwner acc.2 slot r).2) := by
  simp only [readLease, slotNumber_slotStr h, ← resolveOwner_fst]
  rfl

/-- The leases that the loop adds have the owners that the reads stand for, given the cache
before. -/
theorem exec_readLease_reads {raw : List (String × ℕ)} {acc acc' : List SlotLease × OwnerCache}
    (hraw : CanonicalLeases raw) (h : Exec (foldEach readLease acc raw) t acc') :
    (t.map Event.op = raw.map fun entry => .redis (.get (.owner entry.1))) ∧
      (∀ l ∈ acc.1, l ∈ acc'.1) ∧
      (∀ l ∈ acc'.1, l ∈ acc.1 ∨ ∃ r, ownerRead l.slot r ∈ t ∧
        l.owner_instance_id = readOwner (acc.2 l.slot) r) ∧
      ∀ slot r, ownerRead slot r ∈ t → ∃ l ∈ acc'.1, l.slot = slot ∧
        l.owner_instance_id = readOwner (acc.2 slot) r := by
  induction raw generalizing acc t with
  | nil =>
    obtain ⟨rfl, rfl⟩ := exec_ret.mp h
    exact ⟨rfl, fun l hl => hl, fun l hl => .inl hl, by simp⟩
  | cons entry raw ih =>
    obtain ⟨key, expiry⟩ := entry
    obtain ⟨slot₀, hlt, rfl⟩ : ∃ slot < 2 ^ 32, key = slotStr slot := hraw.2 (key, expiry) (by simp)
    rw [foldEach_cons, readLease_slotStr hlt, call_bind, exec_call] at h
    obtain ⟨r₀, t₂, rfl, h₂⟩ := h
    rw [ret_bind] at h₂
    have hnodup := List.nodup_cons.mp hraw.1
    obtain ⟨hops, hold, hnew, hread⟩ :=
      ih ⟨hnodup.2, fun e he => hraw.2 e (List.mem_cons_of_mem _ he)⟩ h₂
    -- The keys are distinct, so the later reads are of other slots.
    have hother : ∀ slot r, ownerRead slot r ∈ t₂ → slot ≠ slot₀ := by
      rintro slot r hmem rfl
      have hop : Eff.redis (.get (.owner (slotStr slot))) ∈ t₂.map Event.op :=
        List.mem_map_of_mem hmem
      rw [hops] at hop
      obtain ⟨e, he, heq⟩ := List.mem_map.mp hop
      have hkey : e.1 = slotStr slot := by simpa using heq
      exact hnodup.1 (List.mem_map.mpr ⟨e, he, hkey⟩)
    have hcache : ∀ slot, slot ≠ slot₀ → (resolveOwner acc.2 slot₀ r₀).2 slot = acc.2 slot :=
      fun slot hne => resolveOwner_snd_of_ne r₀ hne
    refine ⟨by simp [hops], fun l hl => hold l (List.mem_append_left _ hl), fun l hl => ?_,
      fun slot r hmem => ?_⟩
    · rcases hnew l hl with hl | ⟨r, hmem, howner⟩
      · rcases List.mem_append.mp hl with hl | hl
        · exact .inl hl
        · obtain rfl := List.mem_singleton.mp hl
          exact .inr ⟨r₀, List.mem_cons_self, rfl⟩
      · rw [hcache _ (hother _ _ hmem)] at howner
        exact .inr ⟨r, by simp [hmem], howner⟩
    · rcases List.mem_cons.mp hmem with heq | hmem
      · obtain ⟨rfl, rfl⟩ := ownerRead_inj heq
        exact ⟨_, hold _ (List.mem_append_right _ (List.mem_singleton.mpr rfl)), rfl, rfl⟩
      · obtain ⟨l, hl, hslot, howner⟩ := hread slot r hmem
        rw [hcache _ (hother _ _ hmem)] at howner
        exact ⟨l, hl, hslot, howner⟩

theorem ownerRead_not_mem_readWeights {ws : Except String (List WeightEntry)} {slot : ℕ}
    {r : Except String (Option String)} (h : Exec readWeights t ws) : ownerRead slot r ∉ t := by
  intro hmem
  rcases readWeights_always.exec h _ hmem with heq | ⟨name, heq⟩ <;> cases heq

/-- How the leases of a snapshot come from the reads of the cycle and the cache before. -/
structure Collected (cache : OwnerCache) (t : List (Event Eff Eff.Reply)) (src : Sources) :
    Prop where
  unique : ∀ slot r r', ownerRead slot r ∈ t → ownerRead slot r' ∈ t → r = r'
  lease_read : ∀ l ∈ src.leases, ∃ r, ownerRead l.slot r ∈ t ∧
    l.owner_instance_id = readOwner (cache l.slot) r
  read_lease : ∀ slot r, ownerRead slot r ∈ t → ∃ l ∈ src.leases, l.slot = slot ∧
    l.owner_instance_id = readOwner (cache slot) r

theorem exists_collected {snapshot : SystemSnapshot}
    (h : Exec (collect net cache) t (.ok snapshot, cache'))
    (hdir : ∀ dir, ⟨.readDir, .ok dir⟩ ∈ t → dir.names.Nodup)
    (hleases : ∀ raw, ⟨.redis (.zrangeWithScores .leases), .ok raw⟩ ∈ t → CanonicalLeases raw) :
    ∃ src : Sources, src.net = net ∧ src.snapshot = snapshot ∧ Collected cache t src := by
  obtain ⟨t₁, weights, t₂, leases, groups, content, rfl, h₁, h₂, rfl⟩ := exec_collect h
  have hweights := exec_readWeights h₁ fun dir hdir' => hdir dir (by simp [hdir'])
  have hslots := exec_readLeases h₂ fun raw hraw => hleases raw (by simp [hraw])
  refine ⟨⟨net, weights, leases, asgOfReply groups, content, hweights.1, hweights.2, hslots.1,
    hslots.2⟩, rfl, rfl, ?_⟩
  rcases exec_andThen.mp h₂ with ⟨t₃, raw, t₄, rfl, h₃, h₄⟩ | ⟨_, _, heq⟩
  · obtain ⟨acc, h₅, heq⟩ := exec_bind_ret.mp h₄
    cases heq
    obtain ⟨r, hr, hok⟩ := exec_context.mp h₃
    obtain rfl := exec_perform.mp hr
    have hraw : CanonicalLeases raw := hleases raw (by cases r <;> cases hok; simp)
    obtain ⟨hops, -, hnew, hread⟩ := exec_readLease_reads hraw h₅
    -- Only the loop over the leases reads owners.
    have hmem : ∀ {slot r'},
      ownerRead slot r' ∈ t₁ ++ (([⟨.redis (.zrangeWithScores .leases), r⟩] ++ t₄) ++
        [⟨.describeAsg, groups⟩, ⟨.readIpvs, content⟩]) ↔ ownerRead slot r' ∈ t₄ := by
      intro slot r'
      have hne : ∀ ev : Event Eff Eff.Reply, (∀ key, ev.op ≠ .redis (.get key)) →
          ownerRead slot r' ≠ ev := by
        rintro ev hev rfl
        exact hev _ rfl
      have h₁' := @ownerRead_not_mem_readWeights _ _ slot r' h₁
      have h₂' := hne ⟨.redis (.zrangeWithScores .leases), r⟩ (by simp)
      have h₃' := hne ⟨.describeAsg, groups⟩ (by simp)
      have h₄' := hne ⟨.readIpvs, content⟩ (by simp)
      simp only [List.mem_append, List.mem_cons, List.not_mem_nil, h₁', h₂', h₃', h₄', or_false,
        false_or]
    have hnodup : (t₄.map Event.op).Nodup := by
      have hinj : Function.Injective fun key => Eff.redis (.get (.owner key)) := fun a b h => by
        simpa using h
      have hkeys := hraw.1.map hinj
      rw [List.map_map] at hkeys
      rw [hops]
      exact hkeys
    have hperm := List.perm_insertionSort (fun a b : SlotLease => a.slot ≤ b.slot) acc.1
    refine ⟨fun slot r₁ r₂ hr₁ hr₂ => ?_, fun l hl => ?_, fun slot r' hr' => ?_⟩
    · exact (ownerRead_inj (List.inj_on_of_nodup_map hnodup (hmem.mp hr₁) (hmem.mp hr₂) rfl)).2
    · rcases hnew l (hperm.mem_iff.mp hl) with hnil | ⟨r', hr', howner⟩
      · cases hnil
      · exact ⟨r', hmem.mpr hr', howner⟩
    · obtain ⟨l, hl, hslot, howner⟩ := hread slot r' (hmem.mp hr')
      exact ⟨l, hperm.mem_iff.mpr hl, hslot, howner⟩
  · cases heq

end Reads

/-- A cycle of the daemon whose snapshot was collected: the role, what the daemon kept from the
cycles before, who holds which slot, what was read, and what the cleanup did. -/
structure Cycle where
  is_master : Bool
  clock : PassClock
  owner_cache : OwnerCache
  state : CleanupState
  holder : ℕ → Option String
  reads : List (Event Eff Eff.Reply)
  snapshot : SystemSnapshot
  cleanup : List (Event Eff Eff.Reply)

/-- Runs of refresh cycles, with any replies.  A cycle whose snapshot cannot be collected is
over. -/
inductive Refreshes (net : SlotNetwork) (decrement : Bool) (grace : ℕ)
    (kept₀ : OwnerCache × CleanupState) : List Cycle → OwnerCache × CleanupState → Prop
  | start : Refreshes net decrement grace kept₀ [] kept₀
  | failed {cycles : List Cycle} {kept : OwnerCache × CleanupState}
      (run : Refreshes net decrement grace kept₀ cycles kept) {t : List (Event Eff Eff.Reply)}
      {e : String} {owner_cache : OwnerCache}
      (collected : Exec (collect net kept.1) t (.error e, owner_cache)) :
      Refreshes net decrement grace kept₀ cycles (owner_cache, kept.2)
  | cycle {cycles : List Cycle} {kept : OwnerCache × CleanupState}
      (run : Refreshes net decrement grace kept₀ cycles kept) (c : Cycle)
      {owner_cache : OwnerCache} {state : CleanupState} (hcache : c.owner_cache = kept.1)
      (hstate : c.state = kept.2)
      (collected : Exec (collect net c.owner_cache) c.reads (.ok c.snapshot, owner_cache))
      (cleaned : Exec (cleanupRun c.snapshot c.clock false c.is_master decrement c.state grace)
        c.cleanup state) :
      Refreshes net decrement grace kept₀ (c :: cycles) (owner_cache, state)

namespace Cycle

/-- The environment of the cycle: a directory lists a name once, the leases are those of distinct
slots, a value that is read is the holder of the slot, and an instance holds at most one slot. -/
structure Faithful (c : Cycle) : Prop where
  names : ∀ dir, ⟨.readDir, .ok dir⟩ ∈ c.reads → dir.names.Nodup
  leases : ∀ raw, ⟨.redis (.zrangeWithScores .leases), .ok raw⟩ ∈ c.reads → CanonicalLeases raw
  truthful : ∀ slot id, ownerRead slot (.ok (some id)) ∈ c.reads → c.holder slot = some id
  single : ∀ slot slot' id, c.holder slot = some id → c.holder slot' = some id → slot = slot'

/-- The cycle's read of the slot's owner did not return a value. -/
def Unconfirmed (c : Cycle) (slot : ℕ) : Prop :=
  ∃ r, ownerRead slot r ∈ c.reads ∧ ∀ id, r ≠ .ok (some id)

/-- The cleanup neither releases the slot, nor disables its backend, nor terminates its holder. -/
structure Spares (net : SlotNetwork) (c : Cycle) (slot : ℕ) : Prop where
  owner : Eff.redis (.del (.owner (slotStr slot))) ∉ c.cleanup.map Event.op
  lease : Eff.redis (.zrem .leases (slotStr slot)) ∉ c.cleanup.map Event.op
  available : ∀ now, Eff.redis (.zadd .available (slotStr slot) now) ∉ c.cleanup.map Event.op
  backend : Eff.writeFile (weightFile (net.ipForSlot slot)) WEIGHT_DISABLED ∉ c.cleanup.map Event.op
  holder : ∀ id decrement, c.holder slot = some id →
    Eff.terminateInstance id decrement ∉ c.cleanup.map Event.op

/-- Section 2.1 acts on an owner: it releases the lease of an owner that is not in service, and
retires the drained backend of one that is. -/
def Acts (net : SlotNetwork) (c : Cycle) (slot : ℕ) (owner : String) : Prop :=
  owner ≠ OWNER_MISSING ∧ owner ≠ OWNER_UNKNOWN ∧ c.snapshot.guardsPass = true ∧
    (owner ∈ c.snapshot.asgIds → c.snapshot.atMin = false ∧ ∃ b ∈ c.snapshot.backends,
      b.ip = net.ipForSlot slot ∧ b.weight_state = .draining ∧ b.activeConn = 0)

/-- The read of the slot's owner failed, and section 2.1 acts on the cached owner. -/
def ActsOnCache (net : SlotNetwork) (c : Cycle) (slot : ℕ) : Prop :=
  (∃ e, ownerRead slot (.error e) ∈ c.reads) ∧
    ∃ cached, c.owner_cache slot = some cached ∧ c.Acts net slot cached

/-- Section 2.2 takes the holder of the slot for an orphan whose grace period is over. -/
def OrphansHolder (grace : ℕ) (c : Cycle) (slot : ℕ) : Prop :=
  ∃ id, c.holder slot = some id ∧ id ∈ c.snapshot.asgIds ∧ id ∉ c.snapshot.leasedOwners ∧
    GraceOver c.clock grace (c.state.orphan_first_seen id) id (c.snapshot.asgIds.count id)

section

variable {net : SlotNetwork} {decrement : Bool} {grace : ℕ} {c : Cycle} {src : Sources}

/-- A slot whose read did not return a value has a known owner only if the read failed and the owner
is cached. -/
theorem cached_of_unconfirmed (hc : Collected c.owner_cache c.reads src) {l : SlotLease}
    (hl : l ∈ src.leases) (hu : c.Unconfirmed l.slot) (hknown : l.OwnerKnown) :
    (∃ e, ownerRead l.slot (.error e) ∈ c.reads) ∧
      c.owner_cache l.slot = some l.owner_instance_id := by
  obtain ⟨r, hr, hvalue⟩ := hu
  obtain ⟨r', hr', howner⟩ := hc.lease_read l hl
  obtain rfl := hc.unique _ _ _ hr hr'
  rcases r with e | _ | id
  · refine ⟨⟨e, hr⟩, ?_⟩
    cases hcache : c.owner_cache l.slot with
    | none =>
      rw [hcache] at howner
      exact absurd howner hknown.2
    | some cached =>
      rw [hcache] at howner
      exact congrArg some howner.symm
  · exact absurd howner hknown.1
  · exact absurd rfl (hvalue id)

/-- Section 2.1 acts on the owner of a lease exactly when it releases the lease or retires the
backend of its slot. -/
theorem acts_iff (hnet : src.net = net) (hsnapshot : src.snapshot = c.snapshot) {l : SlotLease}
    (hl : l ∈ src.leases) : c.Acts net l.slot l.owner_instance_id ↔
      c.snapshot.guardsPass = true ∧
        ((∃ backend, leaseAction c.snapshot c.clock l = .release backend) ∨
        leaseAction c.snapshot c.clock l = .retire (net.ipForSlot l.slot)) := by
  subst hnet
  rw [Acts, ← hsnapshot]
  constructor
  · rintro ⟨hmissing, hunknown, hguards, hlive⟩
    refine ⟨hguards, ?_⟩
    by_cases hin : l.owner_instance_id ∈ src.snapshot.asgIds
    · obtain ⟨hmin, b, hb, hip, hdraining, hconn⟩ := hlive hin
      have hlease := (Sources.lease_eq_some_iff hb).mpr ⟨hl, hip.symm⟩
      have hof := (Sources.backendOf_eq_some_iff hl).mpr ⟨hb, hlease⟩
      exact .inr (leaseAction_eq_retire.mpr
        ⟨⟨⟨hmissing, hunknown⟩, hin⟩, b, hof, hdraining, hconn, hmin, hip⟩)
    · exact .inl ⟨_, leaseAction_eq_release.mpr ⟨⟨hmissing, hunknown⟩, hin, rfl⟩⟩
  · rintro ⟨hguards, ⟨backend, hrelease⟩ | hretire⟩
    · obtain ⟨⟨hmissing, hunknown⟩, hdead, -⟩ := leaseAction_eq_release.mp hrelease
      exact ⟨hmissing, hunknown, hguards, fun hin => absurd hin hdead⟩
    · obtain ⟨⟨⟨hmissing, hunknown⟩, -⟩, b, hof, hdraining, hconn, hmin, hip⟩ :=
        leaseAction_eq_retire.mp hretire
      obtain ⟨hb, -⟩ := (Sources.backendOf_eq_some_iff hl).mp hof
      exact ⟨hmissing, hunknown, hguards, fun _ => ⟨hmin, b, hb, hip, hdraining, hconn⟩⟩

theorem mem_cleanup {e : Eff} {state : CleanupState}
    (h : Exec (cleanupRun c.snapshot c.clock false true decrement c.state grace) c.cleanup state)
    (he : e ∈ c.cleanup.map Event.op) :
    e ∈ c.snapshot.requests21 c.clock decrement ∨
      (∃ id, e = .terminateInstance id false ∧ id ∈ c.snapshot.asgIds ∧
        id ∉ c.snapshot.leasedOwners ∧
        GraceOver c.clock grace (c.state.orphan_first_seen id) id (c.snapshot.asgIds.count id)) ∨
      e ∈ c.snapshot.requests23 := by
  obtain ⟨t₁, t₂, t₃, htrace, h₁, h₂, h₃⟩ := exec_cleanupRun h
  rw [htrace, List.map_append, List.map_append, List.mem_append, List.mem_append] at he
  rcases he with he | he | he
  · exact .inl (section21_always.exec_op h₁ he)
  · obtain ⟨-, id, -, -, rfl⟩ := section22_always.exec_op h₂ he
    exact .inr (.inl ⟨id, rfl, (section22_terminates_iff h₂).mp he⟩)
  · exact .inr (.inr (section23_always.exec_op h₃ he))

variable {owner_cache : OwnerCache} {state : CleanupState}

/-- Section 2.1 neither releases nor retires a lease whose owner was not confirmed. -/
def Idle (src : Sources) (c : Cycle) : Prop :=
  ∀ l ∈ src.leases, c.snapshot.guardsPass = true → c.Unconfirmed l.slot →
    (∀ backend, leaseAction c.snapshot c.clock l ≠ .release backend) ∧
      ∀ ip, leaseAction c.snapshot c.clock l ≠ .retire ip

theorem idle_of_harmless (hc : Collected c.owner_cache c.reads src)
    (hsnapshot : src.snapshot = c.snapshot)
    (hsafe : ∀ slot, c.Unconfirmed slot → ¬ c.ActsOnCache src.net slot) : c.Idle src := by
  intro l hl hguards hunconfirmed
  have hno : l.OwnerKnown → ¬ ((∃ backend, leaseAction c.snapshot c.clock l = .release backend) ∨
      leaseAction c.snapshot c.clock l = .retire (src.net.ipForSlot l.slot)) := by
    intro hknown hact
    obtain ⟨hread, hcached⟩ := cached_of_unconfirmed hc hl hunconfirmed hknown
    exact hsafe l.slot hunconfirmed ⟨hread, _, hcached,
      (acts_iff rfl hsnapshot hl).mpr ⟨hguards, hact⟩⟩
  refine ⟨fun backend h => hno (leaseAction_eq_release.mp h).1 (.inl ⟨backend, h⟩), fun ip h => ?_⟩
  obtain ⟨hlive, b, hof, -, -, -, hip⟩ := leaseAction_eq_retire.mp h
  rw [← hsnapshot] at hof
  obtain ⟨hb, hlease⟩ := (Sources.backendOf_eq_some_iff hl).mp hof
  rw [← hip, ← ((Sources.lease_eq_some_iff hb).mp hlease).2] at h
  exact hno hlive.1 (.inr h)

section Spared

variable {slot : ℕ} (hsnapshot : src.snapshot = c.snapshot)
  (hcleaned : Exec (cleanupRun c.snapshot c.clock false true decrement c.state grace)
    c.cleanup state)
  (hidle : c.Idle src) (hu : c.Unconfirmed slot)

include hsnapshot hcleaned hidle hu

/-- The slot is not released in Redis. -/
theorem redis_spared {cmd : Cmd ℕ} (hcmd : cmd = .del (.owner (slotStr slot)) ∨
      cmd = .zrem .leases (slotStr slot) ∨ ∃ now, cmd = .zadd .available (slotStr slot) now) :
    Eff.redis cmd ∉ c.cleanup.map Event.op := by
  intro hmem
  rcases mem_cleanup hcleaned hmem with h | ⟨id, heq, -⟩ | h
  · obtain ⟨hguards, l, hl, hreq⟩ := mem_requests21.mp h
    obtain ⟨⟨backend, hrelease⟩, hl'⟩ := redis_mem_requests hreq
    rw [← hsnapshot] at hl
    have hstr : slotStr slot = slotStr l.slot := by
      rcases hcmd with rfl | rfl | ⟨now, rfl⟩
      · simpa using hl'
      · simpa using hl'
      · exact (by simpa using hl' : slotStr slot = slotStr l.slot ∧ now = _).1
    obtain rfl := slotStr_injective hstr
    exact (hidle l hl hguards hu).1 backend hrelease
  · cases heq
  · obtain ⟨b, -, hb⟩ := List.mem_flatMap.mp h
    split at hb <;> simp at hb

theorem backend_spared {l₀ : SlotLease} (hl₀ : l₀ ∈ src.leases) (hslot₀ : l₀.slot = slot) :
    Eff.writeFile (weightFile (src.net.ipForSlot slot)) WEIGHT_DISABLED ∉
      c.cleanup.map Event.op := by
  have hlt : slot < 2 ^ 32 := hslot₀ ▸ src.slots_lt l₀ hl₀
  intro hmem
  rcases mem_cleanup hcleaned hmem with h | ⟨id, heq, -⟩ | h
  · obtain ⟨hguards, l, hl, hreq⟩ := mem_requests21.mp h
    obtain ⟨ip, hname, hwrite⟩ := writeFile_mem_requests.mp hreq
    have haction : leaseAction c.snapshot c.clock l = .release (some ip) ∨
        leaseAction c.snapshot c.clock l = .retire ip :=
      hwrite.elim (fun h => h.1) fun h => absurd h.2 (by decide)
    obtain ⟨b, hof, hip⟩ := backend_of_action (haction.imp_right .inl)
    rw [← hsnapshot] at hl hof
    obtain ⟨hb, hlease⟩ := (Sources.backendOf_eq_some_iff hl).mp hof
    have hslotIp := ((Sources.lease_eq_some_iff hb).mp hlease).2
    have hfile := weightFile_injOn (src.net.ipForSlot_lt slot)
      (hip ▸ Sources.backend_ip_lt hb) hname
    have hslot : slot = l.slot := src.net.ipForSlot_injOn hlt (src.slots_lt l hl)
      (hfile.trans (hip.symm.trans hslotIp.symm))
    subst hslot
    have hno := hidle l hl hguards hu
    exact haction.elim (hno.1 _) (hno.2 _)
  · cases heq
  · obtain ⟨b, hb, hwrite⟩ := List.mem_flatMap.mp h
    split at hwrite
    · next hless =>
      rw [← hsnapshot] at hb
      have hname := (Eff.writeFile.inj (List.mem_singleton.mp hwrite)).1
      have hfile := weightFile_injOn (src.net.ipForSlot_lt slot) (Sources.backend_ip_lt hb) hname
      have hlease := (Sources.lease_eq_some_iff hb).mpr ⟨hl₀, by rw [hslot₀, hfile]⟩
      rw [hless.1] at hlease
      cases hlease
    · cases hwrite

/-- The holder is not terminated: a confirmed owner holds its own slot only. -/
theorem holder_spared (henv : c.Faithful) (hc : Collected c.owner_cache c.reads src)
    (horphans : ¬ c.OrphansHolder grace slot) {id : String} (hholder : c.holder slot = some id)
    (d : Bool) : Eff.terminateInstance id d ∉ c.cleanup.map Event.op := by
  intro hmem
  rcases mem_cleanup hcleaned hmem with h | ⟨id', heq, horphan⟩ | h
  · obtain ⟨hguards, l, hl, hreq⟩ := mem_requests21.mp h
    obtain ⟨⟨ip, hretire⟩, howner, -⟩ := terminate_mem_requests.mp hreq
    rw [← hsnapshot] at hl
    obtain ⟨r', hr', hread⟩ := hc.lease_read l hl
    by_cases hvalue : ∃ v, r' = .ok (some v)
    · obtain ⟨v, rfl⟩ := hvalue
      have hv := henv.truthful _ _ hr'
      rw [howner, hread] at hholder
      have hslot := henv.single _ _ _ hholder hv
      obtain ⟨r, hr, hno⟩ := hu
      rw [← hslot] at hr'
      exact hno v (hc.unique _ _ _ hr hr')
    · have hunconfirmed : c.Unconfirmed l.slot := ⟨r', hr', fun v h => hvalue ⟨v, h⟩⟩
      exact (hidle l hl hguards hunconfirmed).2 ip hretire
  · obtain ⟨rfl, rfl⟩ := Eff.terminateInstance.inj heq
    exact horphans ⟨id, hholder, horphan⟩
  · obtain ⟨b, -, hb⟩ := List.mem_flatMap.mp h
    split at hb <;> simp at hb

end Spared

/-- A cycle that acts neither on cached owners nor on unseen holders spares the slots that it could
not read. -/
theorem spares_of_harmless (henv : c.Faithful)
    (hcollected : Exec (collect net c.owner_cache) c.reads (.ok c.snapshot, owner_cache))
    (hcleaned : Exec (cleanupRun c.snapshot c.clock false true decrement c.state grace)
      c.cleanup state)
    (hsafe : ∀ slot, c.Unconfirmed slot → ¬ c.ActsOnCache net slot ∧ ¬ c.OrphansHolder grace slot)
    {slot : ℕ} (hu : c.Unconfirmed slot) : c.Spares net slot := by
  obtain ⟨src, rfl, hsnapshot, hc⟩ := exists_collected hcollected henv.names henv.leases
  have hidle := idle_of_harmless hc hsnapshot fun slot hu => (hsafe slot hu).1
  obtain ⟨r, hr, -⟩ := id hu
  obtain ⟨l₀, hl₀, hslot₀, -⟩ := hc.read_lease slot r hr
  constructor
  · exact redis_spared hsnapshot hcleaned hidle hu (.inl rfl)
  · exact redis_spared hsnapshot hcleaned hidle hu (.inr (.inl rfl))
  · exact fun now => redis_spared hsnapshot hcleaned hidle hu (.inr (.inr ⟨now, rfl⟩))
  · exact backend_spared hsnapshot hcleaned hidle hu hl₀ hslot₀
  · exact fun id d hholder => holder_spared hsnapshot hcleaned hidle hu henv hc (hsafe slot hu).2
      hholder d

/-- A cycle that spares the slots that it could not read acts neither on cached owners nor on unseen
holders. -/
theorem harmless_of_spares (henv : c.Faithful)
    (hcollected : Exec (collect net c.owner_cache) c.reads (.ok c.snapshot, owner_cache))
    (hcleaned : Exec (cleanupRun c.snapshot c.clock false true decrement c.state grace)
      c.cleanup state)
    {slot : ℕ} (hspares : c.Spares net slot) :
    ¬ c.ActsOnCache net slot ∧ ¬ c.OrphansHolder grace slot := by
  obtain ⟨src, rfl, hsnapshot, hc⟩ := exists_collected hcollected henv.names henv.leases
  obtain ⟨t₁, t₂, t₃, htrace, h₁, h₂, -⟩ := exec_cleanupRun hcleaned
  constructor
  · rintro ⟨⟨e, hread⟩, cached, hcached, hacts⟩
    obtain ⟨l, hl, rfl, howner⟩ := hc.read_lease slot _ hread
    rw [hcached] at howner
    obtain rfl : cached = l.owner_instance_id := howner.symm
    obtain ⟨hguards, haction⟩ := (acts_iff rfl hsnapshot hl).mp hacts
    have hl' : l ∈ c.snapshot.leases := by rw [← hsnapshot]; exact hl
    rcases haction with ⟨backend, hrelease⟩ | hretire
    · refine hspares.owner ?_
      rw [htrace, List.map_append]
      exact List.mem_append_left _ (section21_first h₁ hguards hl' (by rw [hrelease]; rfl))
    · refine hspares.backend ?_
      rw [htrace, List.map_append]
      exact List.mem_append_left _ (section21_first h₁ hguards hl' (by rw [hretire]; rfl))
  · rintro ⟨id, hholder, horphan⟩
    refine hspares.holder id false hholder ?_
    rw [htrace, List.map_append, List.map_append]
    exact List.mem_append_right _
      (List.mem_append_left _ ((section22_terminates_iff h₂).mpr horphan))

end

end Cycle

theorem Refreshes.exec {net : SlotNetwork} {decrement : Bool} {grace : ℕ}
    {kept₀ kept : OwnerCache × CleanupState} {cycles : List Cycle}
    (run : Refreshes net decrement grace kept₀ cycles kept) : ∀ c ∈ cycles, ∃ owner_cache state,
      Exec (collect net c.owner_cache) c.reads (.ok c.snapshot, owner_cache) ∧
        Exec (cleanupRun c.snapshot c.clock false c.is_master decrement c.state grace) c.cleanup
          state := by
  induction run with
  | start => simp
  | failed run _ ih => exact ih
  | @cycle cycles kept run c owner_cache state _ _ collected cleaned ih =>
    intro c' hc'
    rcases List.mem_cons.mp hc' with rfl | hmem
    · exact ⟨owner_cache, state, collected, cleaned⟩
    · exact ih c' hmem

/-- In a run, no slot whose owner was not confirmed is acted on exactly when no cycle of the master
acts on a cached owner in its place or takes the holder of such a slot for an orphan. -/
theorem refreshes_spare_iff {net : SlotNetwork} {decrement : Bool} {grace : ℕ}
    {kept₀ kept : OwnerCache × CleanupState} {cycles : List Cycle}
    (run : Refreshes net decrement grace kept₀ cycles kept) (henv : ∀ c ∈ cycles, c.Faithful) :
    (∀ c ∈ cycles, ∀ slot, c.Unconfirmed slot → c.Spares net slot) ↔
      ∀ c ∈ cycles, c.is_master = true → ∀ slot, c.Unconfirmed slot →
        ¬ c.ActsOnCache net slot ∧ ¬ c.OrphansHolder grace slot := by
  constructor
  · intro hspares c hc hmaster slot hu
    obtain ⟨owner_cache, state, hcollected, hcleaned⟩ := run.exec c hc
    rw [hmaster] at hcleaned
    exact Cycle.harmless_of_spares (henv c hc) hcollected hcleaned (hspares c hc slot hu)
  · intro hsafe c hc slot hu
    obtain ⟨owner_cache, state, hcollected, hcleaned⟩ := run.exec c hc
    cases hmaster : c.is_master with
    | true =>
      rw [hmaster] at hcleaned
      exact Cycle.spares_of_harmless (henv c hc) hcollected hcleaned (hsafe c hc hmaster) hu
    | false =>
      rw [hmaster, cleanupRun, if_pos (by simp)] at hcleaned
      obtain ⟨hnil, -⟩ := exec_ret.mp hcleaned
      constructor <;> simp [hnil]

section Example

/-- Slot 0 is leased and active, `live` is in service, and the read of the owner returns `owner`. -/
def oneSlot (owner : Except String (Option String)) (live : String) : (e : Eff) → e.Reply
  | .readDir => .ok ⟨["backend-10.0.0.20.weight"], none⟩
  | .readFile _ => .ok "0"
  | .redis (.zrangeWithScores _) => .ok [("0", 2000)]
  | .redis (.get _) => owner
  | .describeAsg => .ok [⟨"pool", 2, 1, 4, [⟨live, "InService", "Healthy"⟩]⟩]
  | e => okReply e

/-- A cycle of the master on that slot, which `live` holds. -/
def oneSlotCycle (owner : Except String (Option String)) (live : String) (owner_cache : OwnerCache)
    (state : CleanupState) : Cycle :=
  let clock : PassClock := ⟨fun _ => 1000, fun _ => 10 ^ 9⟩
  let snapshot := assemble exampleNet [⟨167772180, .active⟩]
    [⟨0, (resolveOwner owner_cache 0 owner).1, 2000⟩]
    (some ⟨"pool", 2, 1, 4⟩, [⟨live, "InService", "Healthy"⟩]) []
  { is_master := true
    clock
    owner_cache
    state
    holder := fun slot => if slot = 0 then some live else none
    reads := (answering (oneSlot owner live) (collect exampleNet owner_cache)).1
    snapshot
    cleanup := (answering okReply (cleanupRun snapshot clock false true true state 60)).1 }

variable {owner : Except String (Option String)} {live : String} {owner_cache : OwnerCache}
  {state : CleanupState}

theorem oneSlot_collected : Exec (collect exampleNet owner_cache)
    (oneSlotCycle owner live owner_cache state).reads
    (.ok (oneSlotCycle owner live owner_cache state).snapshot,
      (resolveOwner owner_cache 0 owner).2) :=
  exec_answering (oneSlot owner live) (collect exampleNet owner_cache)

theorem oneSlot_reply {ev : Event Eff Eff.Reply}
    (h : ev ∈ (oneSlotCycle owner live owner_cache state).reads) :
    ev.reply = oneSlot owner live ev.op := mem_answering ev h

theorem oneSlot_ops : (oneSlotCycle owner live owner_cache state).reads.map Event.op =
    [.readDir, .readFile "backend-10.0.0.20.weight", .redis (.zrangeWithScores .leases),
      .redis (.get (.owner (slotStr 0))), .describeAsg, .readIpvs] := rfl

theorem oneSlot_faithful (hvalue : ∀ id, owner = .ok (some id) → id = live) :
    (oneSlotCycle owner live owner_cache state).Faithful where
  names dir hdir := by
    obtain rfl := Except.ok.inj (oneSlot_reply hdir)
    decide
  leases raw hraw := by
    obtain rfl := Except.ok.inj (oneSlot_reply hraw)
    exact ⟨by decide, fun entry hentry => ⟨0, by decide, by rw [List.mem_singleton.mp hentry]; rfl⟩⟩
  truthful slot id hread := by
    obtain rfl := hvalue id (oneSlot_reply hread).symm
    have hop : Eff.redis (.get (.owner (slotStr slot))) ∈
        (oneSlotCycle owner id owner_cache state).reads.map Event.op := List.mem_map_of_mem hread
    have hslot : slotStr slot = slotStr 0 := by simpa [oneSlot_ops] using hop
    exact if_pos (slotStr_injective hslot)
  single slot slot' id h h' := by
    rw [(Option.ite_none_right_eq_some.mp h).1, (Option.ite_none_right_eq_some.mp h').1]

theorem oneSlot_unconfirmed (hvalue : ∀ id, owner ≠ .ok (some id)) :
    (oneSlotCycle owner live owner_cache state).Unconfirmed 0 :=
  ⟨owner, mem_answering_of_op
    (show _ ∈ (oneSlotCycle owner live owner_cache state).reads.map Event.op by
    simp [oneSlot_ops]), hvalue⟩

/-- What the daemon keeps after a cycle on the slot. -/
def keptAfter (owner : Except String (Option String)) (live : String)
    (kept : OwnerCache × CleanupState) : OwnerCache × CleanupState :=
  let c := oneSlotCycle owner live kept.1 kept.2
  ((resolveOwner kept.1 0 owner).2,
    (answering okReply (cleanupRun c.snapshot c.clock false true true c.state 60)).2)

theorem oneSlot_run (owner : Except String (Option String)) (live : String)
    {kept₀ kept : OwnerCache × CleanupState} {cycles : List Cycle}
    (run : Refreshes exampleNet true 60 kept₀ cycles kept) :
    Refreshes exampleNet true 60 kept₀ (oneSlotCycle owner live kept.1 kept.2 :: cycles)
      (keptAfter owner live kept) :=
  .cycle run (oneSlotCycle owner live kept.1 kept.2) rfl rfl oneSlot_collected
    (exec_answering okReply _)

/-- What the daemon keeps when it starts. -/
def nothingKept : OwnerCache × CleanupState := (fun _ => none, ⟨fun _ => none⟩)

/-- The first read of an owner fails, no owner is cached, and the slot is left alone. -/
theorem spares_unknown_owner :
    (oneSlotCycle (.error "timeout") "i-a" nothingKept.1 nothingKept.2).Spares exampleNet 0 := by
  have run := oneSlot_run (.error "timeout") "i-a" (.start : Refreshes _ _ _ nothingKept _ _)
  refine (refreshes_spare_iff run fun c hc => ?_).mpr (fun c hc _ slot _ => ?_) _
    List.mem_cons_self 0 (oneSlot_unconfirmed (by simp))
  · obtain rfl := List.mem_singleton.mp hc
    exact oneSlot_faithful (by simp)
  · obtain rfl := List.mem_singleton.mp hc
    constructor
    · rintro ⟨-, cached, hcached, -⟩
      cases hcached
    · rintro ⟨id, -, -, -, hgrace, -⟩
      cases hgrace

/-- Slot 0 changes hands while its owner is cached; then the read fails, and the cleanup takes the
slot from its new holder. -/
theorem releases_cached_owner :
    ¬ ∀ net decrement grace kept₀ cycles kept, Refreshes net decrement grace kept₀ cycles kept →
      (∀ c ∈ cycles, c.Faithful) →
        ∀ c ∈ cycles, ∀ slot, c.Unconfirmed slot → c.Spares net slot := by
  intro h
  have run := oneSlot_run (.error "timeout") "i-b"
    (oneSlot_run (.ok (some "i-a")) "i-a" (.start : Refreshes _ _ _ nothingKept _ _))
  have hspares := h _ _ _ _ _ _ run (fun c hc => ?_) _ List.mem_cons_self 0
    (oneSlot_unconfirmed (by simp))
  · exact hspares.owner (by decide +kernel)
  · rcases List.mem_cons.mp hc with rfl | hc
    · exact oneSlot_faithful (by simp)
    · obtain rfl := List.mem_singleton.mp hc
      exact oneSlot_faithful fun id hid => (Option.some.inj (Except.ok.inj hid)).symm

end Example

end Aerosuite.Scale
