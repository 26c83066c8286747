import Aerosuite.Scale.Aftermath

/-! Passes of the cleanup on what their own actions leave, while nothing else moves and time stands
still.  A pass decides by the instances that were in service before its terminations, so a second
one may have to release the slots of an owner that the first has terminated.  After that there is
nothing left to do. -/

namespace Aerosuite.Scale

open Pool Program

section Definitions

variable (clock : PassClock) (decrement : Bool) (grace : ℕ)

/-- A pass of the master on the snapshot of the sources, all of whose actions succeed. -/
def cleanupPass (s : Sources × CleanupState) : Sources × CleanupState :=
  let (state, src) := (cleanupRun s.1.snapshot clock false true decrement s.2 grace).run
    (fun e src => (okReply e, src.after e)) s.1
  (src, state)

/-- The operations of the pass. -/
def passOps (s : Sources × CleanupState) : List Eff :=
  performed okReply (cleanupRun s.1.snapshot clock false true decrement s.2 grace)

/-- What holds after any pass: section 2.3 has nothing to do, the grace periods of section 2.2 run
on, and section 2.1 has something to do for the leases of lost owners only. -/
structure Swept (s : Sources × CleanupState) : Prop where
  known : ∀ l ∈ s.1.leases, l.OwnerKnown
  leased : ∀ b ∈ s.1.snapshot.backends, ¬ b.Leaseless
  waiting : ∀ id since, s.2.orphan_first_seen id = some since →
    (clock.orphan id - since) / 10 ^ 9 < grace
  settled : s.1.snapshot.guardsPass = true → ∀ l ∈ s.1.leases,
    l.owner_instance_id ∈ s.1.snapshot.asgIds → leaseAction s.1.snapshot clock l = .skip

/-- No section has anything to do. -/
structure Healed (s : Sources × CleanupState) : Prop extends Swept clock grace s where
  owned : s.1.snapshot.guardsPass = true → ∀ l ∈ s.1.leases,
    l.owner_instance_id ∈ s.1.snapshot.asgIds

end Definitions

section Pass

variable (clock : PassClock) (decrement : Bool) (grace : ℕ) (s : Sources × CleanupState)

theorem cleanupPass_fst : (cleanupPass clock decrement grace s).1 =
    s.1.afterAll (passOps clock decrement grace s) := by
  rw [cleanupPass, run_answering]
  rfl

theorem exec_cleanupPass : ∃ t,
    Exec (cleanupRun s.1.snapshot clock false true decrement s.2 grace) t
      (cleanupPass clock decrement grace s).2 ∧
    t.map Event.op = passOps clock decrement grace s ∧ ∀ ev ∈ t, Succeeded ev := by
  rw [cleanupPass, run_answering]
  exact ⟨_, exec_answering okReply _, rfl, forall_mem_answering succeeded_okReply _⟩

theorem passOps_eq : ∃ t₂, passOps clock decrement grace s =
      s.1.snapshot.requests21 clock decrement ++ (t₂.map Event.op ++ s.1.snapshot.requests23) ∧
    Exec (section22 s.1.snapshot s.2 clock false grace) t₂
      (cleanupPass clock decrement grace s).2 := by
  obtain ⟨t, hrun, hops, hok⟩ := exec_cleanupPass clock decrement grace s
  rw [← hops]
  exact exec_cleanupRun_ops hrun hok

variable {clock decrement grace s} {l : SlotLease} {id : String}

theorem rewritten_iff {b : BackendStatus} (hb : b ∈ s.1.snapshot.backends) (value : String) :
    .writeFile (weightFile b.ip) value ∈ passOps clock decrement grace s ↔
      b.rewritten s.1.snapshot clock = some value := by
  obtain ⟨t, hrun, hops, hok⟩ := exec_cleanupPass clock decrement grace s
  rw [← hops]
  exact writeFile_mem_cleanupRun hrun hok hb value

/-- A pass deletes the owner of a lease, and removes the lease, when it releases the slot. -/
theorem release_mem_passOps {c : Cmd ℕ} (hl : l ∈ s.1.leases)
    (hc : c = .del (.owner (slotStr l.slot)) ∨ c = .zrem .leases (slotStr l.slot)) :
    .redis c ∈ passOps clock decrement grace s ↔ s.1.snapshot.guardsPass = true ∧
      l.OwnerKnown ∧ l.owner_instance_id ∉ s.1.snapshot.asgIds := by
  obtain ⟨t₂, hops, h₂₂⟩ := passOps_eq clock decrement grace s
  have h₂ : Eff.redis c ∉ t₂.map Event.op := by
    intro hmem
    obtain ⟨-, id, -, -, heq⟩ := section22_always.exec_op h₂₂ hmem
    cases heq
  have h₃ : Eff.redis c ∉ s.1.snapshot.requests23 := by
    intro hmem
    obtain ⟨b, -, hmem⟩ := List.mem_flatMap.mp hmem
    split at hmem <;> simp at hmem
  rw [hops, List.mem_append, List.mem_append]
  simp only [h₂, h₃, or_false]
  rw [mem_requests21]
  refine and_congr_right fun _ => ?_
  constructor
  · rintro ⟨l', hl', hmem⟩
    obtain ⟨⟨backend, hrelease⟩, hcmd⟩ := redis_mem_requests hmem
    have hslot : l'.slot = l.slot := by
      apply slotStr_injective
      rcases hc with rfl | rfl <;> simpa [eq_comm] using hcmd
    obtain rfl := Sources.lease_ext hl' hl hslot
    obtain ⟨hknown, hdead, -⟩ := leaseAction_eq_release.mp hrelease
    exact ⟨hknown, hdead⟩
  · rintro ⟨hknown, hdead⟩
    refine ⟨l, hl, ?_⟩
    rw [leaseAction_eq_release.mpr ⟨hknown, hdead, rfl⟩]
    rcases hc with rfl | rfl <;> simp [LeaseAction.requests]

/-- A pass terminates the owner of a lease that it retires, and an instance without lease whose
grace period was over before. -/
theorem terminate_mem_passOps (hgrace : 0 < grace) {d : Bool}
    (h : .terminateInstance id d ∈ passOps clock decrement grace s) :
    (s.1.snapshot.guardsPass = true ∧ ∃ l ∈ s.1.leases, ∃ ip,
      leaseAction s.1.snapshot clock l = .retire ip) ∨
    ∃ since, s.2.orphan_first_seen id = some since ∧ grace ≤
      (clock.orphan id - since) / 10 ^ 9 := by
  obtain ⟨t₂, hops, h₂₂⟩ := passOps_eq clock decrement grace s
  rw [hops, List.mem_append, List.mem_append] at h
  rcases h with h | h | h
  · obtain ⟨hguards, l, hl, hmem⟩ := mem_requests21.mp h
    exact .inl ⟨hguards, l, hl, (terminate_mem_requests.mp hmem).1⟩
  · obtain ⟨-, id', -, -, heq⟩ := section22_always.exec_op h₂₂ h
    obtain ⟨rfl, rfl⟩ := Eff.terminateInstance.inj heq
    obtain ⟨-, -, hover⟩ := (section22_terminates_iff h₂₂).mp h
    unfold GraceOver at hover
    split at hover
    · next since hseen => exact .inr ⟨since, hseen, hover⟩
    · omega
  · obtain ⟨b, -, hmem⟩ := List.mem_flatMap.mp h
    split at hmem <;> simp at hmem

theorem terminate_mem_of_retire {ip : Ipv4Addr} (hguards : s.1.snapshot.guardsPass = true)
    (hl : l ∈ s.1.leases) (h : leaseAction s.1.snapshot clock l = .retire ip) :
    .terminateInstance l.owner_instance_id decrement ∈ passOps clock decrement grace s := by
  obtain ⟨t₂, hops, -⟩ := passOps_eq clock decrement grace s
  rw [hops]
  refine List.mem_append_left _ (mem_requests21.mpr ⟨hguards, l, hl, ?_⟩)
  exact terminate_mem_requests.mpr ⟨⟨ip, h⟩, rfl, rfl⟩

end Pass

section Spec

variable {clock : PassClock} {decrement : Bool} {grace : ℕ} {s : Sources × CleanupState}
  {l : SlotLease}
  {id : String}

theorem mem_asgIds_cleanupPass :
    id ∈ (cleanupPass clock decrement grace s).1.snapshot.asgIds ↔ id ∈ s.1.snapshot.asgIds ∧
      ∀ d, .terminateInstance id d ∉ passOps clock decrement grace s := by
  rw [cleanupPass_fst]
  exact Sources.mem_asgIds_afterAll

theorem isSome_group_cleanupPass :
    (cleanupPass clock decrement grace s).1.snapshot.asg_group.isSome =
      s.1.snapshot.asg_group.isSome := by
  rw [cleanupPass_fst]
  exact Sources.isSome_group_afterAll

theorem exists_backend_of_cleanupPass {b' : BackendStatus}
    (hb' : b' ∈ (cleanupPass clock decrement grace s).1.snapshot.backends) :
    ∃ b ∈ s.1.snapshot.backends, b'.ip = b.ip ∧ b'.ipvs = b.ipvs ∧ b'.weight_state =
      ((b.rewritten s.1.snapshot clock).map BackendState.fromWeightStr).getD b.weight_state := by
  rw [cleanupPass_fst] at hb'
  obtain ⟨b, hb, hip, hipvs, hweight⟩ := Sources.exists_backend_of_afterAll hb'
  exact ⟨b, hb, hip, hipvs, hweight.trans (weightAfter_eq (rewritten_iff hb))⟩

theorem lease_cleanupPass {b b' : BackendStatus} (hb : b ∈ s.1.snapshot.backends)
    (hb' : b' ∈ (cleanupPass clock decrement grace s).1.snapshot.backends) (hip : b'.ip = b.ip)
    (hl : l ∈ s.1.leases) (hl' : l ∈ (cleanupPass clock decrement grace s).1.leases) :
    b'.lease = some l ↔ b.lease = some l := by
  have hnet : (cleanupPass clock decrement grace s).1.net = s.1.net := by
    rw [cleanupPass_fst, Sources.net_afterAll]
  rw [Sources.lease_eq_some_iff hb, Sources.lease_eq_some_iff hb', hip, hnet]
  simp only [hl, hl']

/-- A decision to do nothing for a backend stays, also when the group reaches its minimum. -/
theorem backendAction_skip_of {snapshot snapshot' : SystemSnapshot} {b b' : BackendStatus}
    (h : backendAction snapshot clock l b = .skip) (hweight : b'.weight_state = b.weight_state)
    (hipvs : b'.ipvs = b.ipvs) (hmin : snapshot.atMin = true → snapshot'.atMin = true) :
    backendAction snapshot' clock l b' = .skip := by
  have hconn : b'.activeConn = b.activeConn := by
    rw [BackendStatus.activeConn, BackendStatus.activeConn, hipvs]
  unfold backendAction at h ⊢
  rw [hweight, hconn]
  cases hw : b.weight_state with
  | active => rfl
  | unknown v => rfl
  | disabled =>
    simp only [hw] at h ⊢
    split at h
    · next hexpired => rw [if_pos hexpired]
    · cases h
  | draining =>
    simp only [hw] at h ⊢
    split at h
    · cases h
    · next hbusy =>
      rw [if_neg]
      rintro ⟨hzero, hmin'⟩
      have htrue : snapshot.atMin = true := by simpa [hzero] using hbusy
      rw [hmin htrue] at hmin'
      cases hmin'

variable (known : ∀ l ∈ s.1.leases, l.OwnerKnown)
include known

/-- A pass takes the leases of lost owners away, and leaves the others as they are. -/
theorem mem_leases_cleanupPass : l ∈ (cleanupPass clock decrement grace s).1.leases ↔
    l ∈ s.1.leases ∧
      (s.1.snapshot.guardsPass = true → l.owner_instance_id ∈ s.1.snapshot.asgIds) := by
  rw [cleanupPass_fst, Sources.mem_leases_afterAll fun l hl hdel =>
    (release_mem_passOps hl (.inr rfl)).mpr ((release_mem_passOps hl (.inl rfl)).mp hdel)]
  refine and_congr_right fun hl => ?_
  rw [release_mem_passOps hl (.inr rfl)]
  have hknown := known l hl
  tauto

/-- The guards of section 2.1 do not pass for the first time after a pass. -/
theorem guardsPass_of_cleanupPass
    (h : (cleanupPass clock decrement grace s).1.snapshot.guardsPass = true) :
    s.1.snapshot.guardsPass = true := by
  rw [guardsPass_iff] at h
  obtain ⟨hgroup, hempty⟩ := h
  rw [cleanupPass_fst, Sources.isSome_group_afterAll] at hgroup
  by_contra hguards
  have hnone : s.1.snapshot.asgIds = [] ∧ s.1.snapshot.leases ≠ [] := by
    rw [guardsPass_iff] at hguards
    tauto
  obtain ⟨l, hl⟩ := List.exists_mem_of_ne_nil _ hnone.2
  have hl' : l ∈ (cleanupPass clock decrement grace s).1.leases :=
    (mem_leases_cleanupPass known).mpr ⟨hl, fun h => absurd h hguards⟩
  refine List.ne_nil_of_mem hl' (hempty (List.eq_nil_iff_forall_not_mem.mpr fun id hid => ?_))
  have hin := (mem_asgIds_cleanupPass.mp hid).1
  rw [hnone.1] at hin
  cases hin

theorem leased_cleanupPass :
    ∀ b ∈ (cleanupPass clock decrement grace s).1.snapshot.backends, ¬ b.Leaseless := by
  rintro b' hb' ⟨hnone, hweight'⟩
  obtain ⟨b, hb, hip, -, hweight⟩ := exists_backend_of_cleanupPass hb'
  rw [hweight, BackendStatus.rewritten] at hweight'
  cases hlease : b.lease with
  | none =>
    simp only [hlease] at hweight'
    by_cases hless : b.Leaseless
    · simp [hless] at hweight'
    · simp only [hless, if_false, Option.map_none, Option.getD_none] at hweight'
      exact hless ⟨hlease, hweight'⟩
  | some l =>
    have hl := ((Sources.lease_eq_some_iff hb).mp hlease).1
    -- The lease has been released, so the backend has been disabled with it.
    have hgone : l ∉ (cleanupPass clock decrement grace s).1.leases := fun hl' => by
      rw [(lease_cleanupPass hb hb' hip hl hl').mpr hlease] at hnone
      cases hnone
    rw [mem_leases_cleanupPass known] at hgone
    obtain ⟨hguards, hdead⟩ : s.1.snapshot.guardsPass = true ∧
        l.owner_instance_id ∉ s.1.snapshot.asgIds := by tauto
    simp [hlease, hguards, release_of_dead hb hlease (known l hl) hdead] at hweight'

/-- Section 2.1 has nothing left to do for a lease whose owner is still in service. -/
theorem settled_cleanupPass
    (hguards : (cleanupPass clock decrement grace s).1.snapshot.guardsPass = true)
    (hl : l ∈ (cleanupPass clock decrement grace s).1.leases)
    (hin : l.owner_instance_id ∈ (cleanupPass clock decrement grace s).1.snapshot.asgIds) :
    leaseAction (cleanupPass clock decrement grace s).1.snapshot clock l = .skip := by
  have hguards₀ := guardsPass_of_cleanupPass known hguards
  have hl₀ := ((mem_leases_cleanupPass known).mp hl).1
  obtain ⟨hin₀, hkept⟩ := mem_asgIds_cleanupPass.mp hin
  have hlive : (cleanupPass clock decrement grace s).1.snapshot.OwnerLive l := ⟨known l hl₀, hin⟩
  rw [leaseAction_of_live hlive]
  cases hof : (cleanupPass clock decrement grace s).1.snapshot.backendOf l.slot with
  | none => rfl
  | some b' =>
    obtain ⟨hb', hlease'⟩ := (Sources.backendOf_eq_some_iff hl).mp hof
    obtain ⟨b, hb, hip, hipvs, hweight⟩ := exists_backend_of_cleanupPass hb'
    have hlease := (lease_cleanupPass hb hb' hip hl₀ hl).mp hlease'
    have haction : leaseAction s.1.snapshot clock l = backendAction s.1.snapshot clock l b := by
      rw [leaseAction_of_live ⟨known l hl₀, hin₀⟩,
        (Sources.backendOf_eq_some_iff hl₀).mpr ⟨hb, hlease⟩]
    simp only [BackendStatus.rewritten, hlease, hguards₀, if_true] at hweight
    rcases action_of_lease hb hlease clock with h | h | h | h
    · rw [h] at hweight
      refine backendAction_skip_of (haction.symm.trans h) hweight hipvs fun hmin => ?_
      rw [cleanupPass_fst]
      exact Sources.atMin_afterAll hmin
    · exact absurd (leaseAction_eq_release.mp h).2.1 (not_not.mpr hin₀)
    · exact absurd (terminate_mem_of_retire hguards₀ hl₀ h) (hkept decrement)
    · rw [h] at hweight
      have hactive : b'.weight_state = .active := by simpa using hweight
      simp only [backendAction, hactive]

theorem swept_cleanupPass (hgrace : 0 < grace) :
    Swept clock grace (cleanupPass clock decrement grace s) where
  known l hl := known l ((mem_leases_cleanupPass known).mp hl).1
  leased := leased_cleanupPass known
  waiting := by
    obtain ⟨t₂, -, h₂₂⟩ := passOps_eq clock decrement grace s
    exact (section22_waiting hgrace).exec h₂₂
  settled hguards l hl hin := settled_cleanupPass known hguards hl hin

end Spec

section Rounds

variable {clock : PassClock} {decrement : Bool} {grace : ℕ} {s : Sources × CleanupState}

theorem Swept.no_terminate (h : Swept clock grace s) (hgrace : 0 < grace) (id : String) (d : Bool) :
    .terminateInstance id d ∉ passOps clock decrement grace s := by
  intro hmem
  rcases terminate_mem_passOps hgrace hmem with ⟨hguards, l, hl, ip, hretire⟩ |
    ⟨since, hseen, hover⟩
  · have hlive := (leaseAction_eq_retire.mp hretire).1
    cases (h.settled hguards l hl hlive.2).symm.trans hretire
  · have hwait := h.waiting id since hseen
    omega

/-- The second pass releases the leases of the owners that the first terminated, and terminates
none. -/
theorem Swept.healed_cleanupPass (h : Swept clock grace s) (hgrace : 0 < grace) :
    Healed clock grace (cleanupPass clock decrement grace s) where
  toSwept := swept_cleanupPass h.known hgrace
  owned hguards l hl := by
    have hguards₀ := guardsPass_of_cleanupPass h.known hguards
    have hin := ((mem_leases_cleanupPass h.known).mp hl).2 hguards₀
    exact mem_asgIds_cleanupPass.mpr ⟨hin, h.no_terminate hgrace _⟩

theorem Healed.passOps_eq_nil (h : Healed clock grace s) (hgrace : 0 < grace) :
    passOps clock decrement grace s = [] := by
  obtain ⟨t₂, hops, h₂₂⟩ := passOps_eq clock decrement grace s
  refine List.eq_nil_iff_forall_not_mem.mpr fun e he => ?_
  have he' := he
  rw [hops, List.mem_append, List.mem_append] at he'
  rcases he' with h₂₁ | h₂ | h₂₃
  · obtain ⟨hguards, l, hl, hmem⟩ := mem_requests21.mp h₂₁
    rw [h.settled hguards l hl (h.owned hguards l hl)] at hmem
    cases hmem
  · obtain ⟨-, id, -, -, rfl⟩ := section22_always.exec_op h₂₂ h₂
    exact h.no_terminate hgrace id false he
  · obtain ⟨b, hb, hmem⟩ := List.mem_flatMap.mp h₂₃
    rw [if_neg (h.leased b hb)] at hmem
    cases hmem

theorem Healed.cleanupPass_eq (h : Healed clock grace s) (hgrace : 0 < grace) :
    (cleanupPass clock decrement grace s).1 = s.1 := by
  rw [cleanupPass_fst, h.passOps_eq_nil hgrace]
  rfl

theorem Healed.iterate (h : Healed clock grace s) (hgrace : 0 < grace) (n : ℕ) :
    Healed clock grace ((cleanupPass clock decrement grace)^[n] s) ∧
      ((cleanupPass clock decrement grace)^[n] s).1 = s.1 := by
  induction n with
  | zero => exact ⟨h, rfl⟩
  | succ n ih =>
    rw [Function.iterate_succ_apply']
    exact ⟨ih.1.toSwept.healed_cleanupPass hgrace, (ih.1.cleanupPass_eq hgrace).trans ih.2⟩

theorem isSome_group_of_asgIds {src : Sources} {reply : Except String (List AsgGroup)}
    (hasg : src.asg = asgOfReply reply) (h : src.snapshot.asgIds ≠ []) :
    src.snapshot.asg_group.isSome = true := by
  obtain ⟨id, hid⟩ := List.exists_mem_of_ne_nil _ h
  obtain ⟨i, hi, -⟩ := List.mem_map.mp hid
  have hi' : i ∈ (asgOfReply reply).2 := hasg ▸ List.mem_of_mem_filter hi
  have hgroup : src.snapshot.asg_group = (asgOfReply reply).1 := congrArg Prod.fst hasg
  rw [hgroup]
  rcases reply with e | _ | ⟨g, groups⟩
  · cases hi'
  · cases hi'
  · rfl

/-- After two passes whose actions succeed, while nothing else moves, no pass does anything any
more. If an instance is still in service then, the weights and the leases are in order. -/
theorem cleanup_heals (clock : PassClock) (decrement : Bool) {grace : ℕ} (hgrace : 0 < grace)
    {src : Sources} {reply : Except String (List AsgGroup)} (hasg : src.asg = asgOfReply reply)
    (hknown : ∀ l ∈ src.leases, l.OwnerKnown) (state : CleanupState) :
    let after (n : ℕ) := (cleanupPass clock decrement grace)^[n] (src, state)
    (∀ n, passOps clock decrement grace (after (n + 2)) = [] ∧ (after (n + 2)).1 = (after 2).1) ∧
    ((after 2).1.snapshot.asgIds ≠ [] →
      (∀ b ∈ (after 2).1.snapshot.backends, ¬ b.Leaseless) ∧
      (∀ l ∈ (after 2).1.leases, l.owner_instance_id ∈ (after 2).1.snapshot.asgIds) ∧
      ∀ b ∈ (after 2).1.snapshot.backends, ∀ l, b.lease = some l →
        l.isExpired (clock.lease l.slot) = false → b.weight_state ≠ .disabled) := by
  intro after
  have hswept : Swept clock grace (after 1) := swept_cleanupPass hknown hgrace
  have hhealed : Healed clock grace (after 2) := hswept.healed_cleanupPass hgrace
  constructor
  · intro n
    have hn : Healed clock grace ((cleanupPass clock decrement grace)^[n] (after 2)) ∧
        ((cleanupPass clock decrement grace)^[n] (after 2)).1 = (after 2).1 :=
          hhealed.iterate hgrace n
    rw [← Function.iterate_add_apply] at hn
    exact ⟨hn.1.passOps_eq_nil hgrace, hn.2⟩
  · intro hids
    have hsrc : src.snapshot.asgIds ≠ [] := by
      obtain ⟨id, hid⟩ := List.exists_mem_of_ne_nil _ hids
      have hid₁ := (mem_asgIds_cleanupPass.mp hid).1
      exact List.ne_nil_of_mem (mem_asgIds_cleanupPass.mp hid₁).1
    have hsome : (after 2).1.snapshot.asg_group.isSome = true := by
      have hsome₀ := isSome_group_of_asgIds hasg hsrc
      show (cleanupPass _ _ _ (cleanupPass _ _ _ (src, state))).1.snapshot.asg_group.isSome = true
      rw [isSome_group_cleanupPass, isSome_group_cleanupPass]
      exact hsome₀
    have hguards : (after 2).1.snapshot.guardsPass = true :=
      guardsPass_iff.mpr ⟨hsome, fun h => absurd h hids⟩
    refine ⟨hhealed.leased, hhealed.owned hguards, ?_⟩
    intro b hb l hlease hforce hdisabled
    have hl := ((Sources.lease_eq_some_iff hb).mp hlease).1
    have hin := hhealed.owned hguards l hl
    have henable := leaseAction_eq_enable.mpr ⟨⟨hhealed.known l hl, hin⟩, b,
      (Sources.backendOf_eq_some_iff hl).mpr ⟨hb, hlease⟩, hdisabled, hforce, rfl⟩
    cases (hhealed.settled hguards l hl hin).symm.trans henable

end Rounds

/-- Instance i-a holds the draining slot 0 and the disabled slot 1, and i-b is an orphan. -/
def twoSlotsOfOne : Sources where
  net := exampleNet
  weights := [⟨167772180, .draining⟩, ⟨167772181, .disabled⟩]
  leases := [⟨0, "i-a", 2000⟩, ⟨1, "i-a", 2000⟩]
  asg := asgOfReply (.ok [⟨"pool", 3, 1, 4,
    [⟨"i-a", "InService", "Healthy"⟩, ⟨"i-b", "InService", "Healthy"⟩]⟩])
  table := .ok ""
  distinct_ips := by decide
  ips_lt := by decide
  distinct_slots := by decide
  slots_lt := by decide

/-- The first pass terminates i-a and enables slot 1, the second releases both slots. -/
theorem twoSlotsOfOne_heals :
    let after (n : ℕ) :=
      (cleanupPass ⟨fun _ => 1000, fun _ => 10 ^ 9⟩ true 300)^[n] (twoSlotsOfOne, ⟨fun _ => none⟩)
    ∀ n, (after (n + 2)).1 = (after 2).1 := by
  intro after n
  exact ((cleanup_heals ⟨fun _ => 1000, fun _ => 10 ^ 9⟩ true (by decide)
    (show twoSlotsOfOne.asg = asgOfReply (.ok _) from rfl) (by decide) ⟨fun _ => none⟩).1 n).2

example : (passOps ⟨fun _ => 1000, fun _ => 10 ^ 9⟩ true 300 (twoSlotsOfOne, ⟨fun _ => none⟩)) =
    [.writeFile "backend-10.0.0.20.weight" "-2147483648", .terminateInstance "i-a" true,
      .writeFile "backend-10.0.0.21.weight" "0"] := by
  decide +kernel

end Aerosuite.Scale
