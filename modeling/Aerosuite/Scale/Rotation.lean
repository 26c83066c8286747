import Aerosuite.Scale.Weights

/-! The backends in rotation after a pass of the cleanup.  Section 2.1 does not look at the expiry
of the lease of an active backend, and section 2.3 only at backends without lease, so a crashed
backend stays active until the next claim sweeps its lease.  And an instance that section 2.1
terminates for one of its leases may have another lease, whose backend stays active. -/

namespace Aerosuite.Scale

open Pool Program

/-- The instances in service after operations that AWS accepted. -/
def SystemSnapshot.asgIdsAfter (snapshot : SystemSnapshot) (ops : List Eff) : List String :=
  snapshot.asgIds.filter fun id => ops.all fun
    | .terminateInstance id' _ => id' ≠ id
    | _ => true

/-- The lease of a backend after operations that succeeded. -/
def BackendStatus.leaseAfter (b : BackendStatus) (ops : List Eff) : Option SlotLease :=
  b.lease.filter fun l => .redis (.zrem .leases (slotStr l.slot)) ∉ ops

theorem mem_asgIdsAfter {snapshot : SystemSnapshot} {ops : List Eff} {id : String} :
    id ∈ snapshot.asgIdsAfter ops ↔
      id ∈ snapshot.asgIds ∧ ∀ decrement, Eff.terminateInstance id decrement ∉ ops := by
  rw [SystemSnapshot.asgIdsAfter, List.mem_filter, List.all_eq_true]
  refine and_congr_right fun _ => ⟨fun h decrement hmem => ?_, fun h e he => ?_⟩
  · simpa using h _ hmem
  · cases e with
    | terminateInstance id' decrement =>
      have hne : id' ≠ id := fun heq => h decrement (heq ▸ he)
      simpa using hne
    | _ => rfl

/-- After a pass without faults, each active backend has a lease that is in force, of an instance in
service. -/
def RotationLive (src : Sources) (clock : PassClock) (decrement : Bool) (grace : ℕ) : Prop :=
  ∀ state t state', Exec (cleanupRun src.snapshot clock false true decrement state grace) t state' →
    (∀ ev ∈ t, Succeeded ev ∧ Accepted ev) → ∀ b ∈ src.snapshot.backends,
      b.weightAfter (t.map Event.op) = .active →
        ∃ l, b.leaseAfter (t.map Event.op) = some l ∧ l.isExpired (clock.lease l.slot) = false ∧
          l.owner_instance_id ∈ src.snapshot.asgIdsAfter (t.map Event.op)

/-- The backend is active, and the lease that an instance in service holds on it is over. -/
def BackendStatus.Lapsed (b : BackendStatus) (snapshot : SystemSnapshot) (clock : PassClock) :
    Prop :=
  b.weight_state = .active ∧ ∃ l, b.lease = some l ∧ l.owner_instance_id ∈ snapshot.asgIds ∧
    l.isExpired (clock.lease l.slot) = true

/-- The backend of the lease drains without connections, and the group is above its minimum. -/
def SystemSnapshot.DoneDraining (snapshot : SystemSnapshot) (l : SlotLease) : Prop :=
  ∃ b ∈ snapshot.backendOf l.slot,
    b.weight_state = .draining ∧ b.activeConn = 0 ∧ snapshot.atMin = false

/-- The backend is active or due to be enabled, for an instance in service that also has a lease
whose backend is done draining. -/
def BackendStatus.LosesOwner (b : BackendStatus) (snapshot : SystemSnapshot) (clock : PassClock) :
    Prop :=
  (b.weight_state = .active ∨ b.weight_state = .disabled) ∧
    ∃ l, b.lease = some l ∧ l.owner_instance_id ∈ snapshot.asgIds ∧
      l.isExpired (clock.lease l.slot) = false ∧
      ∃ l' ∈ snapshot.leases, l'.owner_instance_id = l.owner_instance_id ∧ snapshot.DoneDraining l'

instance (b : BackendStatus) (snapshot : SystemSnapshot) (clock : PassClock) :
    Decidable (b.Lapsed snapshot clock) :=
  inferInstanceAs (Decidable (_ ∧ ∃ l ∈ b.lease, _ ∧ _))

instance (snapshot : SystemSnapshot) (l : SlotLease) : Decidable (snapshot.DoneDraining l) :=
  inferInstanceAs (Decidable (∃ b ∈ snapshot.backendOf l.slot, _ ∧ _ ∧ _))

instance (b : BackendStatus) (snapshot : SystemSnapshot) (clock : PassClock) :
    Decidable (b.LosesOwner snapshot clock) :=
  inferInstanceAs (Decidable (_ ∧ ∃ l ∈ b.lease, _ ∧ _ ∧ ∃ l' ∈ snapshot.leases, _ ∧ _))

/-- A backend that is active after a pass has a lease in force of an instance in service, or it has
lapsed before. -/
theorem staysActive_iff {b : BackendStatus} {snapshot : SystemSnapshot} {clock : PassClock}
    (hguards : snapshot.guardsPass = true) (hknown : ∀ l, b.lease = some l → l.OwnerKnown) :
    b.StaysActive snapshot clock ↔ b.Lapsed snapshot clock ∨
      (b.weight_state = .active ∨ b.weight_state = .disabled) ∧
        ∃ l, b.lease = some l ∧ l.owner_instance_id ∈ snapshot.asgIds ∧
          l.isExpired (clock.lease l.slot) = false := by
  unfold BackendStatus.StaysActive BackendStatus.Lapsed
  cases hlease : b.lease with
  | none => simp
  | some l =>
    have hk := hknown l hlease
    simp only [Option.some.injEq, exists_eq_left', hguards, hk, true_and, not_not,
      SystemSnapshot.OwnerLive]
    cases l.isExpired (clock.lease l.slot) <;> simp
    tauto

section Pass

variable {src : Sources} {clock : PassClock} {decrement : Bool} {grace : ℕ}
  {state state' : CleanupState} {t : List (Event Eff Eff.Reply)}

/-- A pass terminates the owner of a lease exactly for a lease whose backend is done draining. -/
theorem terminates_owner_iff
    (h : Exec (cleanupRun src.snapshot clock false true decrement state grace) t state')
    (hok : ∀ ev ∈ t, Succeeded ev) (hguards : src.snapshot.guardsPass = true)
    (hknown : ∀ l ∈ src.leases, l.OwnerKnown) {l : SlotLease} (hl : l ∈ src.leases)
    (hin : l.owner_instance_id ∈ src.snapshot.asgIds) :
    (∃ decrement', Eff.terminateInstance l.owner_instance_id decrement' ∈ t.map Event.op) ↔
      ∃ l' ∈ src.snapshot.leases, l'.owner_instance_id = l.owner_instance_id ∧
        src.snapshot.DoneDraining l' := by
  obtain ⟨t₂, hops, h₂₂⟩ := exec_cleanupRun_ops h hok
  simp only [hops, List.mem_append]
  constructor
  · rintro ⟨decrement', hmem | hmem | hmem⟩
    · obtain ⟨-, l', hl', hrequest⟩ := mem_requests21.mp hmem
      obtain ⟨⟨ip, haction⟩, howner, -⟩ := terminate_mem_requests.mp hrequest
      obtain ⟨-, b, hb, hdraining, hconn, hmin, -⟩ := leaseAction_eq_retire.mp haction
      exact ⟨l', hl', howner.symm, b, hb, hdraining, hconn, hmin⟩
    · -- Section 2.2 spares the owners of leases.
      obtain ⟨-, id, -, hnone, heq⟩ := section22_always.exec_op h₂₂ hmem
      obtain ⟨rfl, -⟩ := Eff.terminateInstance.inj heq
      exact absurd (List.mem_map_of_mem (f := SlotLease.owner_instance_id) hl) hnone
    · obtain ⟨b, -, hb⟩ := List.mem_flatMap.mp hmem
      split at hb
      · cases List.mem_singleton.mp hb
      · cases hb
  · rintro ⟨l', hl', howner, b, hb, hdraining, hconn, hmin⟩
    have hlive : src.snapshot.OwnerLive l' := ⟨hknown l' hl', howner ▸ hin⟩
    have haction : leaseAction src.snapshot clock l' = .retire b.ip :=
      leaseAction_eq_retire.mpr ⟨hlive, b, hb, hdraining, hconn, hmin, rfl⟩
    refine ⟨decrement, .inl (mem_requests21.mpr ⟨hguards, l', hl', ?_⟩)⟩
    exact terminate_mem_requests.mpr ⟨⟨b.ip, haction⟩, howner.symm, rfl⟩

/-- A pass keeps the lease of an instance in service. -/
theorem leaseAfter_of_live
    (h : Exec (cleanupRun src.snapshot clock false true decrement state grace) t state')
    (hok : ∀ ev ∈ t, Succeeded ev) {b : BackendStatus} (hb : b ∈ src.snapshot.backends)
    {l : SlotLease} (hlease : b.lease = some l)
    (hin : l.owner_instance_id ∈ src.snapshot.asgIds) :
    b.leaseAfter (t.map Event.op) = some l := by
  have hl := ((Sources.lease_eq_some_iff hb).mp hlease).1
  have hkept : Eff.redis (.zrem .leases (slotStr l.slot)) ∉ t.map Event.op := by
    obtain ⟨t₂, hops, h₂₂⟩ := exec_cleanupRun_ops h hok
    simp only [hops, List.mem_append, not_or]
    refine ⟨fun hmem => ?_, fun hmem => ?_, fun hmem => ?_⟩
    · obtain ⟨-, l', hl', hrequest⟩ := mem_requests21.mp hmem
      obtain ⟨⟨backend, haction⟩, hc⟩ := redis_mem_requests hrequest
      have hslot : l.slot = l'.slot := slotStr_injective (by simpa using hc)
      obtain rfl := Sources.lease_ext hl hl' hslot
      exact (leaseAction_eq_release.mp haction).2.1 hin
    · obtain ⟨-, id, -, -, heq⟩ := section22_always.exec_op h₂₂ hmem
      cases heq
    · obtain ⟨b', -, hb'⟩ := List.mem_flatMap.mp hmem
      split at hb'
      · cases List.mem_singleton.mp hb'
      · cases hb'
  rw [BackendStatus.leaseAfter, hlease, Option.filter_some, if_pos (by simpa using hkept)]

end Pass

/-- A pass keeps the rotation live exactly when no backend has lapsed before it, and none of those
that it leaves active loses its owner. -/
theorem rotationLive_iff (src : Sources) (clock : PassClock) (decrement : Bool) (grace : ℕ)
    (hguards : src.snapshot.guardsPass = true) (hknown : ∀ l ∈ src.leases, l.OwnerKnown) :
    RotationLive src clock decrement grace ↔ ∀ b ∈ src.snapshot.backends,
      ¬ b.Lapsed src.snapshot clock ∧ ¬ b.LosesOwner src.snapshot clock := by
  have hknown' : ∀ b ∈ src.snapshot.backends, ∀ l, b.lease = some l → l.OwnerKnown :=
    fun b hb l hlease => hknown l ((Sources.lease_eq_some_iff hb).mp hlease).1
  constructor
  · intro hlive b hb
    have hrun := exec_answering okReply
      (cleanupRun src.snapshot clock false true decrement ⟨fun _ => none⟩ grace)
    have hok := forall_mem_answering succeeded_okReply
      (cleanupRun src.snapshot clock false true decrement ⟨fun _ => none⟩ grace)
    have hafter := fun hstays => hlive _ _ _ hrun
      (forall_mem_answering (fun e => ⟨succeeded_okReply e, accepted_okReply e⟩) _) b hb
      ((weightAfter_active_iff hb (writeFile_mem_cleanupRun hrun hok hb)).mpr
        ((staysActive_iff hguards (hknown' b hb)).mpr hstays))
    constructor
    · intro hlapsed
      obtain ⟨l, hlease, hforce, -⟩ := hafter (.inl hlapsed)
      obtain ⟨-, l', hlease', -, hover⟩ := hlapsed
      obtain rfl := Option.some.inj ((Option.filter_eq_some_iff.mp hlease).1.symm.trans hlease')
      exact absurd (hforce.symm.trans hover) (by decide)
    · rintro ⟨hstate, l, hlease, hin, hforce, hdraining⟩
      obtain ⟨l', hlease', -, hserves⟩ := hafter (.inr ⟨hstate, l, hlease, hin, hforce⟩)
      obtain rfl := Option.some.inj ((Option.filter_eq_some_iff.mp hlease').1.symm.trans hlease)
      have hl := ((Sources.lease_eq_some_iff hb).mp hlease).1
      obtain ⟨decrement', hmem⟩ :=
        (terminates_owner_iff hrun hok hguards hknown hl hin).mpr hdraining
      exact (mem_asgIdsAfter.mp hserves).2 decrement' hmem
  · intro hnone state t state' hrun hgood b hb hactive
    have hok : ∀ ev ∈ t, Succeeded ev := fun ev hev => (hgood ev hev).1
    have hstays :=
      (weightAfter_active_iff hb (writeFile_mem_cleanupRun hrun hok hb)).mp hactive
    rcases (staysActive_iff hguards (hknown' b hb)).mp hstays with hlapsed |
      ⟨hstate, l, hlease, hin, hforce⟩
    · exact absurd hlapsed (hnone b hb).1
    · have hl := ((Sources.lease_eq_some_iff hb).mp hlease).1
      refine ⟨l, leaseAfter_of_live hrun hok hb hlease hin, hforce,
        mem_asgIdsAfter.mpr ⟨hin, fun decrement' hmem => (hnone b hb).2 ?_⟩⟩
      exact ⟨hstate, l, hlease, hin, hforce,
        (terminates_owner_iff hrun hok hguards hknown hl hin).mp ⟨decrement', hmem⟩⟩

/-- An active backend in a group of two, whose owner in service has a lease until `expires_ms`. -/
def leasedUntil (expires_ms : ℕ) : Sources where
  net := exampleNet
  weights := [⟨167772180, .active⟩]
  leases := [⟨0, "i-a", expires_ms⟩]
  asg := (some ⟨"pool", 2, 1, 4⟩, [⟨"i-a", "InService", "Healthy"⟩])
  table := .ok ""
  distinct_ips := by simp
  ips_lt := by simp
  distinct_slots := by simp
  slots_lt := by simp

/-- An active backend of i-a, and one of `owner` that is done draining. -/
def oneDoneDraining (owner : String) : Sources where
  net := exampleNet
  weights := [⟨167772180, .active⟩, ⟨167772181, .draining⟩]
  leases := [⟨0, "i-a", 2000⟩, ⟨1, owner, 2000⟩]
  asg := (some ⟨"pool", 3, 1, 4⟩,
    [⟨"i-a", "InService", "Healthy"⟩, ⟨"i-b", "InService", "Healthy"⟩])
  table := .ok ""
  distinct_ips := by simp
  ips_lt := by simp
  distinct_slots := by simp
  slots_lt := by simp

theorem rotationLive_of_lease_in_force :
    RotationLive (oneDoneDraining "i-b") ⟨fun _ => 1000, fun _ => 10 ^ 9⟩ true 300 :=
  (rotationLive_iff (oneDoneDraining "i-b") ⟨fun _ => 1000, fun _ => 10 ^ 9⟩ true 300 (by decide)
    (by decide)).mpr (by decide)

/-- An instance that has both leases is terminated, and its active backend stays so. -/
example : (answering okReply (cleanupRun (oneDoneDraining "i-a").snapshot
      ⟨fun _ => 1000, fun _ => 10 ^ 9⟩ false true true ⟨fun _ => none⟩ 300)).1.map Event.op =
    [.writeFile "backend-10.0.0.21.weight" "-2147483648", .terminateInstance "i-a" true] := by
  decide

/-- At second 3, the backend whose lease ended at second 2 is still active after the pass. -/
theorem rotation_keeps_lapsed : ¬ ∀ (src : Sources) clock decrement grace,
    src.snapshot.guardsPass = true → (∀ l ∈ src.leases, l.OwnerKnown) →
      RotationLive src clock decrement grace := by
  intro h
  have hlive := h (leasedUntil 2000) ⟨fun _ => 3000, fun _ => 10 ^ 9⟩ true 300
    (by decide) (by decide)
  obtain ⟨l, hlease, hforce, -⟩ := hlive ⟨fun _ => none⟩ _ _ (exec_answering okReply _)
    (forall_mem_answering (fun e => ⟨succeeded_okReply e, accepted_okReply e⟩) _)
    ⟨167772180, some 0, .active, none, some ⟨0, "i-a", 2000⟩⟩ (by decide) (by decide)
  obtain rfl := Option.some.inj hlease
  exact absurd hforce (by decide)

end Aerosuite.Scale
