import Aerosuite.Scale.Snapshot

/-! The cleanup pass of `aeroscale`.  Each section is the program of the source; `leaseAction` is
the decision that section 2.1 takes for a lease, and `handleLease_eq` that the program performs its
requests one after the other until one fails. -/

namespace Aerosuite.Scale

open Pool Program

/-- The clocks of a pass: the wall clock in milliseconds when the lease of a slot is looked at, and
the monotonic clock in nanoseconds when an instance without lease is. -/
structure PassClock where
  lease : ℕ → ℕ
  orphan : String → ℕ

/-- `orphan_first_seen`, which lives across passes. -/
structure CleanupState where
  orphan_first_seen : String → Option ℕ

/-- `release_slot`, where `now` is the time that it reads. -/
def releaseSlot (slot : ℕ) (_owner : String) (now : ℕ) (dry_run : Bool) :
    Daemon (Except String Unit) :=
  let slot_str := slotStr slot
  if dry_run then pure (.ok ())
  else
    andThen (context "DEL owner failed" (eff (.redis (.del (.owner slot_str))))) fun _ =>
    andThen (context "ZREM leases failed" (eff (.redis (.zrem .leases slot_str)))) fun _ =>
    context "ZADD available failed" (eff (.redis (.zadd .available slot_str now)))

/-- `asg_ids`: the instances that are in service. -/
def SystemSnapshot.asgIds (snapshot : SystemSnapshot) : List String :=
  (snapshot.asg.filter AsgInstance.isInService).map AsgInstance.instance_id

def handleLease (snapshot : SystemSnapshot) (clock : PassClock)
    (dry_run term_decrements_capacity : Bool) (lease : SlotLease) : Daemon (Except String Unit) :=
  let slot := lease.slot
  let owner := lease.owner_instance_id
  let in_asg := owner ∈ snapshot.asgIds
  let backend := snapshot.backendOf slot
  if owner = OWNER_MISSING then pure (.ok ())
  else if owner = OWNER_UNKNOWN then pure (.ok ())
  else if ¬ in_asg then
    andThen (releaseSlot slot owner (clock.lease slot) dry_run) fun _ =>
      match backend with
      | some b => writeWeight b.ip WEIGHT_DISABLED dry_run
      | none => pure (.ok ())
  else
    match backend with
    | none => pure (.ok ())
    | some b =>
      match b.weight_state with
      | .active => pure (.ok ())
      | .draining =>
        let active_conn := (b.ipvs.map IpvsBackend.active_connections).getD 0
        if active_conn = 0 then
          if (snapshot.asg_group.map AsgGroupInfo.wouldViolateMin).getD false then pure (.ok ())
          else
            andThen (writeWeight b.ip WEIGHT_DISABLED dry_run) fun _ =>
              terminateInstance owner dry_run term_decrements_capacity
        else pure (.ok ())
      | .disabled =>
        if lease.isExpired (clock.lease slot) then pure (.ok ())
        else writeWeight b.ip WEIGHT_ACTIVE dry_run
      | .unknown _ => pure (.ok ())

/-- The guards of section 2.1 let it run: the query of the group succeeded and shows an instance in
service, unless there are no leases. -/
def SystemSnapshot.guardsPass (snapshot : SystemSnapshot) : Bool :=
  snapshot.asg_group.isSome && !(snapshot.asgIds.isEmpty && !snapshot.leases.isEmpty)

theorem guardsPass_iff {snapshot : SystemSnapshot} : snapshot.guardsPass = true ↔
    snapshot.asg_group.isSome = true ∧ (snapshot.asgIds = [] → snapshot.leases = []) := by
  simp [SystemSnapshot.guardsPass, imp_iff_not_or]

/-- `section_21_active_leases`, which logs the error of a lease and goes on. -/
def section21 (snapshot : SystemSnapshot) (clock : PassClock)
    (dry_run term_decrements_capacity : Bool) : Daemon Unit :=
  if snapshot.asg_group.isNone then pure ()
  else if snapshot.asgIds.isEmpty ∧ ¬ snapshot.leases.isEmpty then pure ()
  else
    forEach (fun lease => do
      let _ ← handleLease snapshot clock dry_run term_decrements_capacity lease
      pure ()) snapshot.leases

/-- The owners of the leases of a snapshot. -/
def SystemSnapshot.leasedOwners (snapshot : SystemSnapshot) : List String :=
  snapshot.leases.map SlotLease.owner_instance_id

/-- The body of the loop of `section_22_orphaned_asg_instances` for an instance in service, on
`orphan_first_seen` and `still_orphaned`. -/
def visitInstance (snapshot : SystemSnapshot) (clock : PassClock) (dry_run : Bool)
    (orphan_grace_secs : ℕ) (acc : (String → Option ℕ) × List String) (inst : AsgInstance) :
    Daemon ((String → Option ℕ) × List String) :=
  let (first_seen, still_orphaned) := acc
  let id := inst.instance_id
  if id ∈ snapshot.leasedOwners then pure (Function.update first_seen id none, still_orphaned)
  else
    match first_seen id with
    | none =>
      pure (Function.update first_seen id (some (clock.orphan id)), id :: still_orphaned)
    | some since =>
      let elapsed := (clock.orphan id - since) / 10 ^ 9
      if elapsed < orphan_grace_secs then pure (first_seen, id :: still_orphaned)
      else do
        let _ ← terminateInstance id dry_run false
        pure (Function.update first_seen id none, still_orphaned.filter (· ≠ id))

/-- `section_22_orphaned_asg_instances`. -/
def section22 (snapshot : SystemSnapshot) (state : CleanupState) (clock : PassClock)
    (dry_run : Bool) (orphan_grace_secs : ℕ) : Daemon CleanupState := do
  let (first_seen, still_orphaned) ← foldEach
    (visitInstance snapshot clock dry_run orphan_grace_secs)
    (state.orphan_first_seen, []) (snapshot.asg.filter AsgInstance.isInService)
  pure ⟨fun id => if id ∈ still_orphaned then first_seen id else none⟩

/-- `section_23_backends_without_leases`. -/
def section23 (snapshot : SystemSnapshot) (dry_run : Bool) : Daemon Unit :=
  forEach (fun b =>
    if b.lease.isSome then pure ()
    else
      match b.weight_state with
      | .active | .draining => do
        let _ ← writeWeight b.ip WEIGHT_DISABLED dry_run
        pure ()
      | .disabled | .unknown _ => pure ()) snapshot.backends

/-- `cleanup::run`, with the state after it. -/
def cleanupRun (snapshot : SystemSnapshot) (clock : PassClock)
    (dry_run is_master term_decrements_capacity : Bool) (state : CleanupState)
    (orphan_grace_secs : ℕ) : Daemon CleanupState :=
  if ¬ is_master then pure state
  else do
    section21 snapshot clock dry_run term_decrements_capacity
    let state ← section22 snapshot state clock dry_run orphan_grace_secs
    section23 snapshot dry_run
    pure state

/-- What section 2.1 decides for a lease. -/
inductive LeaseAction where
  | skip
  | release (backend : Option Ipv4Addr)
  | retire (ip : Ipv4Addr)
  | enable (ip : Ipv4Addr)
  deriving DecidableEq

/-- The owner of the lease is known. -/
def SlotLease.OwnerKnown (l : SlotLease) : Prop :=
  l.owner_instance_id ≠ OWNER_MISSING ∧ l.owner_instance_id ≠ OWNER_UNKNOWN

instance (l : SlotLease) : Decidable l.OwnerKnown := inferInstanceAs (Decidable (_ ∧ _))

/-- The active connections that the cleanup sees for a backend. -/
def BackendStatus.activeConn (b : BackendStatus) : ℕ :=
  (b.ipvs.map IpvsBackend.active_connections).getD 0

/-- The group is at its minimum. -/
def SystemSnapshot.atMin (snapshot : SystemSnapshot) : Bool :=
  (snapshot.asg_group.map AsgGroupInfo.wouldViolateMin).getD false

/-- The decision for a lease whose owner is in service and whose backend is known. -/
def backendAction (snapshot : SystemSnapshot) (clock : PassClock) (lease : SlotLease)
    (b : BackendStatus) : LeaseAction :=
  match b.weight_state with
  | .draining => if b.activeConn = 0 ∧ snapshot.atMin = false then .retire b.ip else .skip
  | .disabled => if lease.isExpired (clock.lease lease.slot) then .skip else .enable b.ip
  | .active | .unknown _ => .skip

/-- The decision of section 2.1 for a lease. -/
def leaseAction (snapshot : SystemSnapshot) (clock : PassClock) (lease : SlotLease) : LeaseAction :=
  if ¬ lease.OwnerKnown then .skip
  else if lease.owner_instance_id ∉ snapshot.asgIds then
    .release ((snapshot.backendOf lease.slot).map BackendStatus.ip)
  else
    match snapshot.backendOf lease.slot with
    | none => .skip
    | some b => backendAction snapshot clock lease b

/-- What section 2.1 does for a decision. -/
def LeaseAction.perform (clock : PassClock) (dry_run term_decrements_capacity : Bool)
    (lease : SlotLease) : LeaseAction → Daemon (Except String Unit)
  | .skip => pure (.ok ())
  | .release backend =>
    andThen (releaseSlot lease.slot lease.owner_instance_id (clock.lease lease.slot) dry_run)
      fun _ =>
        match backend with
        | some ip => writeWeight ip WEIGHT_DISABLED dry_run
        | none => pure (.ok ())
  | .retire ip =>
    andThen (writeWeight ip WEIGHT_DISABLED dry_run) fun _ =>
      terminateInstance lease.owner_instance_id dry_run term_decrements_capacity
  | .enable ip => writeWeight ip WEIGHT_ACTIVE dry_run

/-- The requests of a decision, each of which is made when the one before succeeded. -/
def LeaseAction.requests (clock : PassClock) (term_decrements_capacity : Bool) (lease : SlotLease) :
    LeaseAction → List Eff
  | .skip => []
  | .release backend =>
    [.redis (.del (.owner (slotStr lease.slot))), .redis (.zrem .leases (slotStr lease.slot)),
      .redis (.zadd .available (slotStr lease.slot) (clock.lease lease.slot))] ++
      backend.toList.map fun ip => .writeFile (weightFile ip) WEIGHT_DISABLED
  | .retire ip =>
    [.writeFile (weightFile ip) WEIGHT_DISABLED,
      .terminateInstance lease.owner_instance_id term_decrements_capacity]
  | .enable ip => [.writeFile (weightFile ip) WEIGHT_ACTIVE]

section Requests

variable {snapshot : SystemSnapshot} {clock : PassClock} {dry_run term_decrements_capacity : Bool}
  {lease : SlotLease}

theorem handleLease_eq : handleLease snapshot clock dry_run term_decrements_capacity lease =
    (leaseAction snapshot clock lease).perform clock dry_run term_decrements_capacity lease := by
  unfold handleLease leaseAction SlotLease.OwnerKnown
  by_cases hmissing : lease.owner_instance_id = OWNER_MISSING
  · simp [hmissing, LeaseAction.perform]
  by_cases hunknown : lease.owner_instance_id = OWNER_UNKNOWN
  · simp [hunknown, LeaseAction.perform]
  by_cases hin : lease.owner_instance_id ∈ snapshot.asgIds
  · simp only [hmissing, hunknown, hin, if_false, not_true, ne_eq, not_false_iff, and_self]
    cases hb : snapshot.backendOf lease.slot with
    | none => rfl
    | some b =>
      simp only [backendAction]
      cases b.weight_state with
      | active => rfl
      | unknown v => rfl
      | disabled =>
        dsimp only
        split <;> rfl
      | draining =>
        simp only [BackendStatus.activeConn, SystemSnapshot.atMin]
        by_cases hconn : (b.ipvs.map IpvsBackend.active_connections).getD 0 = 0
        · by_cases hmin :
              (snapshot.asg_group.map AsgGroupInfo.wouldViolateMin).getD false = true <;>
            simp [hconn, hmin, LeaseAction.perform]
        · simp [hconn, LeaseAction.perform]
  · simp only [hmissing, hunknown, hin, if_false, not_false_iff, ne_eq, not_true, and_self, if_true]
    cases snapshot.backendOf lease.slot <;> rfl

theorem backendAction_eq_retire {b : BackendStatus} {ip : Ipv4Addr} :
    backendAction snapshot clock lease b = .retire ip ↔
      b.weight_state = .draining ∧ b.activeConn = 0 ∧ snapshot.atMin = false ∧ b.ip = ip := by
  unfold backendAction
  cases b.weight_state with
  | draining =>
    by_cases h : b.activeConn = 0 ∧ snapshot.atMin = false
    · simp [h]
    · simp only [if_neg h, true_and]
      exact ⟨fun heq => (by cases heq), fun ⟨h₁, h₂, _⟩ => absurd ⟨h₁, h₂⟩ h⟩
  | disabled => simp only [reduceCtorEq, false_and, iff_false]; split <;> simp
  | active => simp
  | unknown v => simp

theorem backendAction_eq_enable {b : BackendStatus} {ip : Ipv4Addr} :
    backendAction snapshot clock lease b = .enable ip ↔
      b.weight_state = .disabled ∧ lease.isExpired (clock.lease lease.slot) = false ∧
        b.ip = ip := by
  unfold backendAction
  cases b.weight_state with
  | disabled => cases lease.isExpired (clock.lease lease.slot) <;> simp
  | draining => simp only [reduceCtorEq, false_and, iff_false]; split <;> simp
  | active => simp
  | unknown v => simp

theorem backendAction_ne_release {b : BackendStatus} {backend : Option Ipv4Addr} :
    backendAction snapshot clock lease b ≠ .release backend := by
  unfold backendAction
  split
  · split <;> simp
  · split <;> simp
  · simp
  · simp

/-- The owner of the lease is known and in service. -/
def SystemSnapshot.OwnerLive (snapshot : SystemSnapshot) (l : SlotLease) : Prop :=
  l.OwnerKnown ∧ l.owner_instance_id ∈ snapshot.asgIds

instance (l : SlotLease) : Decidable (snapshot.OwnerLive l) := inferInstanceAs (Decidable (_ ∧ _))

theorem leaseAction_of_live (h : snapshot.OwnerLive lease) : leaseAction snapshot clock lease =
    match snapshot.backendOf lease.slot with
    | none => .skip
    | some b => backendAction snapshot clock lease b := by
  rw [leaseAction, if_neg (not_not.mpr h.1), if_neg (not_not.mpr h.2)]

/-- A lease whose owner is unknown or not in service is at most released. -/
theorem leaseAction_of_not_live (h : ¬ snapshot.OwnerLive lease) {ip : Ipv4Addr} :
    leaseAction snapshot clock lease ≠ .retire ip ∧
      leaseAction snapshot clock lease ≠ .enable ip := by
  unfold leaseAction
  split
  · simp
  · next hknown =>
    rw [if_pos fun hin => h ⟨not_not.mp hknown, hin⟩]
    simp

theorem leaseAction_eq_release {backend : Option Ipv4Addr} :
    leaseAction snapshot clock lease = .release backend ↔
      lease.OwnerKnown ∧ lease.owner_instance_id ∉ snapshot.asgIds ∧
        backend = (snapshot.backendOf lease.slot).map BackendStatus.ip := by
  by_cases hknown : lease.OwnerKnown
  · by_cases hin : lease.owner_instance_id ∈ snapshot.asgIds
    · rw [leaseAction_of_live ⟨hknown, hin⟩]
      cases snapshot.backendOf lease.slot with
      | none => simp [hin]
      | some b => simp [hin, backendAction_ne_release]
    · simp [leaseAction, hknown, hin, eq_comm]
  · simp [leaseAction, hknown]

theorem leaseAction_eq_retire {ip : Ipv4Addr} : leaseAction snapshot clock lease = .retire ip ↔
    snapshot.OwnerLive lease ∧ ∃ b ∈ snapshot.backendOf lease.slot,
      b.weight_state = .draining ∧ b.activeConn = 0 ∧ snapshot.atMin = false ∧ b.ip = ip := by
  by_cases hlive : snapshot.OwnerLive lease
  · rw [leaseAction_of_live hlive]
    cases snapshot.backendOf lease.slot with
    | none => simp
    | some b => simp [hlive, backendAction_eq_retire]
  · exact iff_of_false (leaseAction_of_not_live hlive).1 fun h => hlive h.1

theorem leaseAction_eq_enable {ip : Ipv4Addr} : leaseAction snapshot clock lease = .enable ip ↔
    snapshot.OwnerLive lease ∧ ∃ b ∈ snapshot.backendOf lease.slot,
      b.weight_state = .disabled ∧ lease.isExpired (clock.lease lease.slot) = false ∧
        b.ip = ip := by
  by_cases hlive : snapshot.OwnerLive lease
  · rw [leaseAction_of_live hlive]
    cases snapshot.backendOf lease.slot with
    | none => simp
    | some b => simp [hlive, backendAction_eq_enable]
  · exact iff_of_false (leaseAction_of_not_live hlive).2 fun h => hlive h.1

theorem terminate_mem_requests {action : LeaseAction} {id : String} {decrement : Bool} :
    Eff.terminateInstance id decrement ∈ action.requests clock term_decrements_capacity lease ↔
      (∃ ip, action = .retire ip) ∧ id = lease.owner_instance_id ∧
        decrement = term_decrements_capacity := by
  cases action with
  | release backend => cases backend <;> simp [LeaseAction.requests]
  | skip | retire ip | enable ip => simp [LeaseAction.requests]

theorem redis_mem_requests {action : LeaseAction} {c : Cmd ℕ}
    (h : Eff.redis c ∈ action.requests clock term_decrements_capacity lease) :
    (∃ backend, action = .release backend) ∧ (c = .del (.owner (slotStr lease.slot)) ∨
      c = .zrem .leases (slotStr lease.slot) ∨
      c = .zadd .available (slotStr lease.slot) (clock.lease lease.slot)) := by
  cases action with
  | release backend =>
    refine ⟨⟨backend, rfl⟩, ?_⟩
    cases backend <;> simpa [LeaseAction.requests] using h
  | skip | retire ip | enable ip => simp [LeaseAction.requests] at h

theorem writeFile_mem_requests {action : LeaseAction} {name value : String} :
    Eff.writeFile name value ∈ action.requests clock term_decrements_capacity lease ↔
      ∃ ip, name = weightFile ip ∧ ((action = .release (some ip) ∨ action = .retire ip) ∧
        value = WEIGHT_DISABLED ∨ action = .enable ip ∧ value = WEIGHT_ACTIVE) := by
  cases action with
  | release backend => cases backend <;> simp [LeaseAction.requests, eq_comm]
  | skip => simp [LeaseAction.requests]
  | retire ip => simp [LeaseAction.requests]
  | enable ip => simp [LeaseAction.requests]

theorem releaseSlot_always {slot now : ℕ} {owner : String} :
    (releaseSlot slot owner now false).Always
    (· ∈ [.redis (.del (.owner (slotStr slot))), .redis (.zrem .leases (slotStr slot)),
      .redis (.zadd .available (slotStr slot) now)]) := by
  refine Always.andThen (Always.context ⟨by simp, fun _ => trivial⟩) fun _ => ?_
  refine Always.andThen (Always.context ⟨by simp, fun _ => trivial⟩) fun _ => ?_
  exact Always.context ⟨by simp, fun _ => trivial⟩

theorem writeWeight_always {ip : Ipv4Addr} {value : String} : (writeWeight ip value false).Always
    (· = .writeFile (weightFile ip) value) :=
  Always.context ⟨rfl, fun _ => trivial⟩

theorem perform_always (action : LeaseAction) :
    (action.perform clock false term_decrements_capacity lease).Always
      (· ∈ action.requests clock term_decrements_capacity lease) := by
  cases action with
  | skip => trivial
  | release backend =>
    refine Always.andThen (releaseSlot_always.mono fun e he => List.mem_append_left _ he)
      fun _ => ?_
    cases backend with
    | none => trivial
    | some ip => exact writeWeight_always.mono fun e he => by simp [LeaseAction.requests, he]
  | retire ip =>
    refine Always.andThen (writeWeight_always.mono fun e he => by simp [LeaseAction.requests, he])
      fun _ => ⟨by simp [LeaseAction.requests], fun _ => trivial⟩
  | enable ip => exact writeWeight_always.mono fun e he => by simp [LeaseAction.requests, he]

theorem handleLease_always :
    (handleLease snapshot clock false term_decrements_capacity lease).Always
    (· ∈ (leaseAction snapshot clock lease).requests clock term_decrements_capacity lease) := by
  rw [handleLease_eq]
  exact perform_always _

theorem exec_releaseSlot {slot now : ℕ} {owner : String} {t : List (Event Eff Eff.Reply)}
    {r : Except String Unit} (h : Exec (releaseSlot slot owner now false) t r)
    (hok : ∀ ev ∈ t, Succeeded ev) :
    t.map Event.op = [.redis (.del (.owner (slotStr slot))), .redis (.zrem .leases (slotStr slot)),
      .redis (.zadd .available (slotStr slot) now)] ∧ ∃ a, r = .ok a := by
  obtain ⟨_, t₁, hdel, h₁, hok₁⟩ := exec_andThen_ok h hok exec_redis
  obtain ⟨_, t₂, hzrem, h₂, hok₂⟩ := exec_andThen_ok h₁ hok₁ exec_redis
  obtain ⟨hzadd, hr⟩ := exec_redis h₂ hok₂
  rw [hdel, hzrem, hzadd]
  exact ⟨rfl, hr⟩

theorem perform_requests {action : LeaseAction} {t : List (Event Eff Eff.Reply)}
    {r : Except String Unit}
    (h : Exec (action.perform clock false term_decrements_capacity lease) t r)
    (hok : ∀ ev ∈ t, Succeeded ev) :
    t.map Event.op = action.requests clock term_decrements_capacity lease := by
  cases action with
  | skip =>
    obtain ⟨rfl, -⟩ := exec_ret.mp h
    rfl
  | release backend =>
    obtain ⟨_, t₁, hrelease, h₁, hok₁⟩ := exec_andThen_ok h hok exec_releaseSlot
    rw [hrelease, LeaseAction.requests, List.append_right_inj]
    cases backend with
    | none =>
      obtain ⟨rfl, -⟩ := exec_ret.mp h₁
      rfl
    | some ip => exact (exec_writeWeight h₁ hok₁).1
  | retire ip =>
    obtain ⟨_, t₁, hwrite, h₁, -⟩ := exec_andThen_ok h hok exec_writeWeight
    obtain rfl := exec_perform.mp h₁
    rw [hwrite]
    rfl
  | enable ip => exact (exec_writeWeight h hok).1

/-- When its writes succeed, a lease makes all requests of its decision. -/
theorem handleLease_requests {t : List (Event Eff Eff.Reply)} {r : Except String Unit}
    (h : Exec (handleLease snapshot clock false term_decrements_capacity lease) t r)
    (hok : ∀ ev ∈ t, Succeeded ev) : t.map Event.op =
      (leaseAction snapshot clock lease).requests clock term_decrements_capacity lease := by
  rw [handleLease_eq] at h
  exact perform_requests h hok

/-- The requests of section 2.1 for all leases of a snapshot. -/
def SystemSnapshot.requests21 (snapshot : SystemSnapshot) (clock : PassClock)
    (term_decrements_capacity : Bool) : List Eff :=
  if snapshot.guardsPass then
    snapshot.leases.flatMap fun l =>
      (leaseAction snapshot clock l).requests clock term_decrements_capacity l
  else []

theorem section21_eq : section21 snapshot clock dry_run term_decrements_capacity =
    if snapshot.guardsPass then
      forEach (fun lease => do
        let _ ← handleLease snapshot clock dry_run term_decrements_capacity lease
        pure ()) snapshot.leases
    else pure () := by
  unfold section21 SystemSnapshot.guardsPass
  cases snapshot.asg_group with
  | none => rfl
  | some g => cases snapshot.asgIds.isEmpty <;> cases snapshot.leases.isEmpty <;> rfl

theorem exec_handleLease_unit {t : List (Event Eff Eff.Reply)} :
    Exec (do
      let _ ← handleLease snapshot clock dry_run term_decrements_capacity lease
      pure ()) t () ↔
      ∃ r, Exec (handleLease snapshot clock dry_run term_decrements_capacity lease) t r := by
  rw [exec_bind]
  constructor
  · rintro ⟨t₁, r, t₂, rfl, h₁, h₂⟩
    obtain ⟨rfl, -⟩ := exec_ret.mp h₂
    exact ⟨r, by simpa using h₁⟩
  · rintro ⟨r, h⟩
    exact ⟨t, r, [], by simp, h, .ret _⟩

theorem section21_always : (section21 snapshot clock false term_decrements_capacity).Always
    (· ∈ snapshot.requests21 clock term_decrements_capacity) := by
  rw [section21_eq, SystemSnapshot.requests21]
  split
  · refine Always.forEach fun l hl => Always.bind
      (handleLease_always.mono fun e he => ?_) fun _ => trivial
    exact List.mem_flatMap.mpr ⟨l, hl, he⟩
  · trivial

/-- When its writes succeed, section 2.1 makes the requests of all leases, since the error of one
lease does not stop it. -/
theorem section21_requests {t : List (Event Eff Eff.Reply)}
    (h : Exec (section21 snapshot clock false term_decrements_capacity) t ())
    (hok : ∀ ev ∈ t, Succeeded ev) :
    t.map Event.op = snapshot.requests21 clock term_decrements_capacity := by
  rw [section21_eq] at h
  rw [SystemSnapshot.requests21]
  by_cases hp : snapshot.guardsPass = true
  · rw [if_pos hp] at h ⊢
    refine exec_forEach_ops h hok fun l _ t' hl hok' => ?_
    obtain ⟨r, hr⟩ := exec_handleLease_unit.mp hl
    exact handleLease_requests hr hok'
  · rw [if_neg hp] at h ⊢
    obtain ⟨rfl, -⟩ := exec_ret.mp h
    rfl

theorem handleLease_first {t : List (Event Eff Eff.Reply)} {r : Except String Unit} {e : Eff}
    (h : Exec (handleLease snapshot clock false term_decrements_capacity lease) t r)
    (he : ((leaseAction snapshot clock lease).requests clock term_decrements_capacity lease).head? =
      some e) : e ∈ t.map Event.op := by
  rw [handleLease_eq] at h
  cases haction : leaseAction snapshot clock lease with
  | skip => simp [haction, LeaseAction.requests] at he
  | release backend =>
    rw [haction] at h he
    obtain rfl := Option.some.inj he
    obtain ⟨r', t', rfl, -⟩ := exec_call.mp h
    exact List.mem_cons_self
  | retire ip =>
    rw [haction] at h he
    obtain rfl := Option.some.inj he
    obtain ⟨r', t', rfl, -⟩ := exec_call.mp h
    exact List.mem_cons_self
  | enable ip =>
    rw [haction] at h he
    obtain rfl := Option.some.inj he
    obtain ⟨r', t', rfl, -⟩ := exec_call.mp h
    exact List.mem_cons_self

/-- Section 2.1 makes the first request of each lease, whatever its replies. -/
theorem section21_first {t : List (Event Eff Eff.Reply)} {e : Eff}
    (h : Exec (section21 snapshot clock false term_decrements_capacity) t ())
    (hguards : snapshot.guardsPass = true) (hl : lease ∈ snapshot.leases)
    (he : ((leaseAction snapshot clock lease).requests clock term_decrements_capacity lease).head? =
      some e) : e ∈ t.map Event.op := by
  rw [section21_eq, if_pos hguards] at h
  obtain ⟨t', ht', hsub⟩ := exec_forEach_mem h hl
  obtain ⟨r, hr⟩ := exec_handleLease_unit.mp ht'
  obtain ⟨ev, hev, rfl⟩ := List.mem_map.mp (handleLease_first hr he)
  exact List.mem_map_of_mem (hsub ev hev)

theorem mem_requests21 {e : Eff} : e ∈ snapshot.requests21 clock term_decrements_capacity ↔
    snapshot.guardsPass = true ∧ ∃ l ∈ snapshot.leases,
      e ∈ (leaseAction snapshot clock l).requests clock term_decrements_capacity l := by
  rw [SystemSnapshot.requests21]
  split
  · next h => simp [h]
  · next h => simp [h]

theorem backend_of_action {ip : Ipv4Addr}
    (h : leaseAction snapshot clock lease = .release (some ip) ∨
      leaseAction snapshot clock lease = .retire ip ∨
        leaseAction snapshot clock lease = .enable ip) :
    ∃ b ∈ snapshot.backendOf lease.slot, b.ip = ip := by
  rcases h with h | h | h
  · obtain ⟨-, -, hip⟩ := leaseAction_eq_release.mp h
    obtain ⟨b, hb, rfl⟩ := Option.map_eq_some_iff.mp hip.symm
    exact ⟨b, hb, rfl⟩
  · obtain ⟨-, b, hb, -, -, -, hip⟩ := leaseAction_eq_retire.mp h
    exact ⟨b, hb, hip⟩
  · obtain ⟨-, b, hb, -, -, hip⟩ := leaseAction_eq_enable.mp h
    exact ⟨b, hb, hip⟩

/-- Section 2.1 writes to the file of a backend only for the lease that the backend shows. -/
theorem writeFile_mem_requests21 {src : Sources} {b : BackendStatus} {value : String}
    (hb : b ∈ src.snapshot.backends) :
    Eff.writeFile (weightFile b.ip) value ∈ src.snapshot.requests21 clock term_decrements_capacity ↔
      src.snapshot.guardsPass = true ∧ ∃ l, b.lease = some l ∧
        ((leaseAction src.snapshot clock l = .release (some b.ip) ∨
          leaseAction src.snapshot clock l = .retire b.ip) ∧ value = WEIGHT_DISABLED ∨
        leaseAction src.snapshot clock l = .enable b.ip ∧ value = WEIGHT_ACTIVE) := by
  rw [mem_requests21]
  refine and_congr_right fun _ => ?_
  constructor
  · rintro ⟨l, hl, hmem⟩
    obtain ⟨ip, hname, haction⟩ := writeFile_mem_requests.mp hmem
    obtain ⟨b', hb', rfl⟩ :=
      backend_of_action (haction.elim (fun h => h.1.imp_right .inl) fun h => .inr (.inr h.1))
    obtain ⟨hmem', hlease⟩ := (Sources.backendOf_eq_some_iff hl).mp hb'
    have hip := weightFile_injOn (Sources.backend_ip_lt hb) (Sources.backend_ip_lt hmem') hname
    obtain rfl := Sources.backend_ext hb hmem' hip
    exact ⟨l, hlease, haction⟩
  · rintro ⟨l, hlease, haction⟩
    have hl := ((Sources.lease_eq_some_iff hb).mp hlease).1
    exact ⟨l, hl, writeFile_mem_requests.mpr ⟨b.ip, rfl, haction⟩⟩

/-- Section 2.3 disables the backend. -/
def BackendStatus.Leaseless (b : BackendStatus) : Prop :=
  b.lease = none ∧ (b.weight_state = .active ∨ b.weight_state = .draining)

instance (b : BackendStatus) : Decidable b.Leaseless := inferInstanceAs (Decidable (_ ∧ _))

/-- The requests of section 2.3. -/
def SystemSnapshot.requests23 (snapshot : SystemSnapshot) : List Eff :=
  snapshot.backends.flatMap fun b =>
    if b.Leaseless then [.writeFile (weightFile b.ip) WEIGHT_DISABLED] else []

theorem section23_eq : section23 snapshot dry_run =
    forEach (fun b =>
      if b.Leaseless then do
        let _ ← writeWeight b.ip WEIGHT_DISABLED dry_run
        pure ()
      else pure ()) snapshot.backends := by
  unfold section23
  congr 1
  funext ⟨ip, slot, weight_state, ipvs, lease⟩
  cases lease <;> cases weight_state <;> rfl

theorem section23_always :
    (section23 snapshot false).Always (· ∈ snapshot.requests23) := by
  rw [section23_eq]
  refine Always.forEach fun b hb => ?_
  by_cases hless : b.Leaseless
  · rw [if_pos hless]
    refine Always.bind (writeWeight_always.mono fun e he => ?_) fun _ => trivial
    exact List.mem_flatMap.mpr ⟨b, hb, by simp [hless, he]⟩
  · rw [if_neg hless]
    trivial

theorem section23_requests {t : List (Event Eff Eff.Reply)}
    (h : Exec (section23 snapshot false) t ()) (hok : ∀ ev ∈ t, Succeeded ev) :
    t.map Event.op = snapshot.requests23 := by
  rw [section23_eq] at h
  refine exec_forEach_ops h hok fun b _ t' hb hok' => ?_
  by_cases hless : b.Leaseless
  · rw [if_pos hless] at hb ⊢
    obtain ⟨_, h₁, -⟩ := exec_bind_ret.mp hb
    exact (exec_writeWeight h₁ hok').1
  · rw [if_neg hless] at hb ⊢
    obtain ⟨rfl, -⟩ := exec_ret.mp hb
    rfl

end Requests

end Aerosuite.Scale
