import Aerosuite.Scale.Weights

/-! A drained backend whose termination fails, over the passes of a master.  The pass that
terminates disables the backend first, and to the next pass a disabled backend with a lease in force
is one whose claim was missed. -/

namespace Aerosuite.Scale

open Program

/-- A pass of the cleanup: what its snapshot is joined from, its clock, and what it did. -/
structure CleanupPass where
  src : Sources
  clock : PassClock
  trace : List (Event Eff Eff.Reply)

namespace CleanupPass

/-- The pass finds the backend of an address with a lease in force, whose owner is in service.  A
query of the group that fails does not show it. -/
structure Finds (p : CleanupPass) (ip : Ipv4Addr) (owner : String) (b : BackendStatus)
    (l : SlotLease) :
    Prop where
  backend : b ∈ p.src.snapshot.backends
  address : b.ip = ip
  lease : b.lease = some l
  holder : l.owner_instance_id = owner
  known : l.OwnerKnown
  inService : p.src.snapshot.guardsPass = true → owner ∈ p.src.snapshot.asgIds
  inForce : l.isExpired (p.clock.lease l.slot) = false

/-- The pass gives the backend the active weight. -/
def Enables (p : CleanupPass) (ip : Ipv4Addr) : Prop :=
  .writeFile (weightFile ip) WEIGHT_ACTIVE ∈ p.trace.map Event.op

/-- The pass asked to terminate the instance in vain. -/
def FailsToTerminate (p : CleanupPass) (owner : String) (decrement : Bool) : Prop :=
  ∃ e, ⟨.terminateInstance owner decrement, .error e⟩ ∈ p.trace

/-- A drain of the backend could end with this pass: section 2.1 runs, the group is above its
minimum, and the backend has no connection. -/
def MayTerminate (p : CleanupPass) (ip : Ipv4Addr) : Prop :=
  p.src.snapshot.guardsPass = true ∧ p.src.snapshot.atMin = false ∧
    ∃ b ∈ p.src.snapshot.backends, b.ip = ip ∧ b.activeConn = 0

/-- The pass finds the backend draining, and its drain ends. -/
def Retires (p : CleanupPass) (ip : Ipv4Addr) : Prop :=
  p.MayTerminate ip ∧ ∃ b ∈ p.src.snapshot.backends, b.ip = ip ∧ b.weight_state = .draining

end CleanupPass

section Runs

variable (ip : Ipv4Addr) (owner : String) (decrement : Bool) (grace : ℕ)

/-- Passes of the master, newest first, over a backend that was draining.  Requests to terminate may
fail.  The weight file is left to the passes, and the lease keeps its owner. -/
inductive DrainRun : List CleanupPass → BackendState → CleanupState → Prop
  | start (state : CleanupState) : DrainRun [] .draining state
  | pass {passes : List CleanupPass} {w : BackendState} {state state' : CleanupState}
      (run : DrainRun passes w state) {p : CleanupPass} {b : BackendStatus} {l : SlotLease}
      (found : p.Finds ip owner b l) (weight : b.weight_state = w)
      (exec : Exec (cleanupRun p.src.snapshot p.clock false true decrement state grace)
        p.trace state')
      (ok : ∀ ev ∈ p.trace, Succeeded ev) :
      DrainRun (p :: passes) (b.weightAfter (p.trace.map Event.op)) state'

/-- No pass cancels the drain, and after a failed termination each pass that may terminate tries it
again. -/
def DrainKept (passes : List CleanupPass) : Prop :=
  (∀ p ∈ passes, ¬ p.Enables ip) ∧
    passes.Pairwise fun later earlier => earlier.FailsToTerminate owner decrement →
      later.MayTerminate ip → .terminateInstance owner decrement ∈ later.trace.map Event.op

/-- Once a pass has retired the backend, the guards of section 2.1 skip it in all later passes. -/
def SkippedAfterRetire (passes : List CleanupPass) : Prop :=
  passes.Pairwise fun later earlier => earlier.Retires ip → later.src.snapshot.guardsPass = false

end Runs

section Pass

variable {ip : Ipv4Addr} {owner : String} {decrement : Bool} {grace : ℕ} {p : CleanupPass}
  {b : BackendStatus} {l : SlotLease} {state state' : CleanupState}

theorem CleanupPass.Finds.live (found : p.Finds ip owner b l)
    (hguards : p.src.snapshot.guardsPass = true) : p.src.snapshot.OwnerLive l :=
  ⟨found.known, found.holder ▸ found.inService hguards⟩

theorem CleanupPass.Finds.backendOf (found : p.Finds ip owner b l) :
    p.src.snapshot.backendOf l.slot = some b := by
  have hl := ((Sources.lease_eq_some_iff found.backend).mp found.lease).1
  exact (Sources.backendOf_eq_some_iff hl).mpr ⟨found.backend, found.lease⟩

/-- What a pass may do with the backend depends on the one that it finds. -/
theorem CleanupPass.Finds.retires_iff (found : p.Finds ip owner b l) :
    p.Retires ip ↔ p.MayTerminate ip ∧ b.weight_state = .draining := by
  refine and_congr_right fun _ => ⟨?_, fun hw => ⟨b, found.backend, found.address, hw⟩⟩
  rintro ⟨b', hb', hip, hw⟩
  obtain rfl := Sources.backend_ext found.backend hb' (found.address.trans hip.symm)
  exact hw

theorem CleanupPass.Finds.leaseAction_of_retires (found : p.Finds ip owner b l) (h : p.Retires ip) :
    leaseAction p.src.snapshot p.clock l = .retire b.ip := by
  obtain ⟨⟨hguards, hmin, b', hb', hip, hconn⟩, hw⟩ := found.retires_iff.mp h
  obtain rfl := Sources.backend_ext found.backend hb' (found.address.trans hip.symm)
  exact leaseAction_eq_retire.mpr ⟨found.live hguards, b, found.backendOf, hw, hconn, hmin, rfl⟩

theorem CleanupPass.Finds.rewritten_of_retires (found : p.Finds ip owner b l) (h : p.Retires ip) :
    b.rewritten p.src.snapshot p.clock = some WEIGHT_DISABLED := by
  rw [BackendStatus.rewritten, found.lease]
  dsimp only
  rw [if_pos h.1.1, found.leaseAction_of_retires h]

/-- A drain that does not end with the pass goes on. -/
theorem CleanupPass.Finds.rewritten_of_draining (found : p.Finds ip owner b l)
    (hw : b.weight_state = .draining) (h : ¬ p.Retires ip) :
    b.rewritten p.src.snapshot p.clock = none := by
  rw [BackendStatus.rewritten, found.lease]
  dsimp only
  split
  · next hguards =>
    have haction : leaseAction p.src.snapshot p.clock l = .skip := by
      rw [leaseAction_of_live (found.live hguards), found.backendOf]
      simp only [backendAction, hw]
      rw [if_neg fun hretire => h (found.retires_iff.mpr
        ⟨⟨hguards, hretire.2, b, found.backend, found.address, hretire.1⟩, hw⟩)]
    rw [haction]
  · rfl

/-- To a pass a disabled backend with a lease in force is one to enable. -/
theorem CleanupPass.Finds.rewritten_of_disabled (found : p.Finds ip owner b l)
    (hw : b.weight_state = .disabled) (hguards : p.src.snapshot.guardsPass = true) :
    b.rewritten p.src.snapshot p.clock = some WEIGHT_ACTIVE := by
  have haction : leaseAction p.src.snapshot p.clock l = .enable b.ip :=
    leaseAction_eq_enable.mpr ⟨found.live hguards, b, found.backendOf, hw, found.inForce, rfl⟩
  rw [BackendStatus.rewritten, found.lease]
  dsimp only
  rw [if_pos hguards, haction]

theorem CleanupPass.Finds.rewritten_of_guards (found : p.Finds ip owner b l)
    (hguards : p.src.snapshot.guardsPass = false) : b.rewritten p.src.snapshot p.clock = none := by
  rw [BackendStatus.rewritten, found.lease]
  dsimp only
  rw [if_neg (by simp [hguards])]

variable (found : p.Finds ip owner b l)
  (exec : Exec (cleanupRun p.src.snapshot p.clock false true decrement state grace) p.trace state')
  (ok : ∀ ev ∈ p.trace, Succeeded ev)

include found exec ok

theorem enables_iff : p.Enables ip ↔ b.rewritten p.src.snapshot p.clock = some WEIGHT_ACTIVE := by
  rw [CleanupPass.Enables, ← found.address]
  exact writeFile_mem_cleanupRun exec ok found.backend _

theorem weightAfter_pass : b.weightAfter (p.trace.map Event.op) =
    ((b.rewritten p.src.snapshot p.clock).map BackendState.fromWeightStr).getD b.weight_state :=
  weightAfter_eq (writeFile_mem_cleanupRun exec ok found.backend)

theorem terminate_mem_of_retires (h : p.Retires ip) :
    Eff.terminateInstance owner decrement ∈ p.trace.map Event.op := by
  obtain ⟨t₂, hops, -⟩ := exec_cleanupRun_ops exec ok
  rw [hops, List.mem_append]
  refine .inl (mem_requests21.mpr ⟨h.1.1, l, ?_, terminate_mem_requests.mpr ⟨⟨b.ip, ?_⟩, ?_, rfl⟩⟩)
  · exact ((Sources.lease_eq_some_iff found.backend).mp found.lease).1
  · exact found.leaseAction_of_retires h
  · exact found.holder.symm

end Pass

section Run

variable {ip : Ipv4Addr} {owner : String} {decrement : Bool} {grace : ℕ} {passes : List CleanupPass}
  {w : BackendState} {state : CleanupState}

/-- While no pass runs section 2.1 after the one that retired the backend, the backend drains until
it is retired, and then stays disabled. -/
theorem DrainRun.weight (run : DrainRun ip owner decrement grace passes w state)
    (h : SkippedAfterRetire ip passes) :
    w = .draining ∧ (∀ p ∈ passes, ¬ p.Retires ip) ∨ w = .disabled ∧
      ∃ p ∈ passes, p.Retires ip := by
  induction run with
  | start state => exact .inl ⟨rfl, by simp⟩
  | @pass passes w state state' run p b l found weight exec ok ih =>
    obtain ⟨hskip, h⟩ := List.pairwise_cons.mp h
    rw [weightAfter_pass found exec ok]
    rcases ih h with ⟨hw, hnone⟩ | ⟨hw, q, hq, hretires⟩
    · by_cases hretires : p.Retires ip
      · rw [found.rewritten_of_retires hretires]
        exact .inr ⟨by simp, p, List.mem_cons_self, hretires⟩
      · rw [found.rewritten_of_draining (weight.trans hw) hretires]
        refine .inl ⟨weight.trans hw, fun q hq => ?_⟩
        rcases List.mem_cons.mp hq with rfl | hq
        · exact hretires
        · exact hnone q hq
    · rw [found.rewritten_of_guards (hskip q hq hretires)]
      exact .inr ⟨weight.trans hw, q, List.mem_cons_of_mem _ hq, hretires⟩

/-- In a run of the master, a drain is kept exactly when the guards of section 2.1 skip it in all
passes after the one that retires the backend. -/
theorem drainKept_iff (run : DrainRun ip owner decrement grace passes w state) :
    DrainKept ip owner decrement passes ↔ SkippedAfterRetire ip passes := by
  induction run with
  | start state => exact iff_of_true ⟨by simp, List.Pairwise.nil⟩ List.Pairwise.nil
  | @pass passes w state state' run p b l found weight exec ok ih =>
    constructor
    · rintro ⟨hnone, hretried⟩
      have hskip := ih.mp ⟨fun q hq => hnone q (List.mem_cons_of_mem _ hq), hretried.of_cons⟩
      refine List.pairwise_cons.mpr ⟨fun q hq hretires => ?_, hskip⟩
      by_contra hguards
      -- The backend has been disabled since it was retired, so the pass enables it.
      rcases run.weight hskip with ⟨-, hnever⟩ | ⟨hw, -⟩
      · exact hnever q hq hretires
      · refine hnone p List.mem_cons_self ((enables_iff found exec ok).mpr ?_)
        exact found.rewritten_of_disabled (weight.trans hw) (by simpa using hguards)
    · intro h
      obtain ⟨hskip, hskip'⟩ := List.pairwise_cons.mp h
      obtain ⟨hnone, hretried⟩ := ih.mpr hskip'
      have henables : ¬ p.Enables ip := by
        rw [enables_iff found exec ok]
        rcases run.weight hskip' with ⟨hw, -⟩ | ⟨-, q, hq, hretires⟩
        · by_cases hretires : p.Retires ip
          · rw [found.rewritten_of_retires hretires]
            decide
          · rw [found.rewritten_of_draining (weight.trans hw) hretires]
            decide
        · rw [found.rewritten_of_guards (hskip q hq hretires)]
          decide
      refine ⟨fun q hq => ?_, List.pairwise_cons.mpr ⟨fun q hq _ hmay => ?_, hretried⟩⟩
      · rcases List.mem_cons.mp hq with rfl | hq
        · exact henables
        · exact hnone q hq
      · rcases run.weight hskip' with ⟨hw, -⟩ | ⟨-, q', hq', hretires⟩
        · exact terminate_mem_of_retires found exec ok
            (found.retires_iff.mpr ⟨hmay, weight.trans hw⟩)
        · exact absurd (hmay.1.symm.trans (hskip q' hq' hretires)) (by decide)

end Run

def leaseOfSlot0 : SlotLease := ⟨0, "i-a", 2000⟩

theorem nodup_leaseOfSlot0 : ([leaseOfSlot0].map SlotLease.slot).Nodup := List.nodup_singleton _

theorem leaseOfSlot0_lt : ∀ l ∈ [leaseOfSlot0], l.slot < 2 ^ 32 := by decide

/-- Slot 0 is leased to i-a, and its backend has no connection. -/
def emptySlot (w : BackendState) (asg : Option AsgGroupInfo × List AsgInstance) : Sources where
  net := exampleNet
  weights := [⟨167772180, w⟩]
  leases := [leaseOfSlot0]
  asg := asg
  table := .ok ""
  distinct_ips := List.nodup_singleton _
  ips_lt := List.forall_mem_singleton.mpr (show 167772180 < 2 ^ 32 by decide)
  distinct_slots := nodup_leaseOfSlot0
  slots_lt := leaseOfSlot0_lt

/-- A group of two that must keep one, with i-a in service. -/
def groupOfTwo : Option AsgGroupInfo × List AsgInstance :=
  (some ⟨"pool", 2, 1, 4⟩, [⟨"i-a", "InService", "Healthy"⟩])

/-- Replies with which only the terminations fail. -/
def throttledReply : (e : Eff) → e.Reply
  | .terminateInstance .. => .error "throttled"
  | e => okReply e

/-- A pass at second 1 whose terminations fail, with the state after it. -/
def throttledRun (src : Sources) (state : CleanupState) :
    List (Event Eff Eff.Reply) × CleanupState :=
  answering throttledReply
    (cleanupRun src.snapshot ⟨fun _ => 1000, fun _ => 10 ^ 9⟩ false true true state 300)

def throttledPass (src : Sources) (state : CleanupState) : CleanupPass :=
  ⟨src, ⟨fun _ => 1000, fun _ => 10 ^ 9⟩, (throttledRun src state).1⟩

/-- The passes that drain slot 0 and then look at the group again. -/
def throttledTwice (asg : Option AsgGroupInfo × List AsgInstance) : List CleanupPass :=
  let first := emptySlot .draining groupOfTwo
  [throttledPass (emptySlot .disabled asg) (throttledRun first ⟨fun _ => none⟩).2,
    throttledPass first ⟨fun _ => none⟩]

theorem emptySlot_backends (w : BackendState) (asg : Option AsgGroupInfo × List AsgInstance) :
    (emptySlot w asg).snapshot.backends =
      [⟨167772180, some 0, w, none, some leaseOfSlot0⟩] := by
  have hipvs : ipvsOf (.ok "") = [] := by decide
  have hslot : exampleNet.slotForIp 167772180 = some 0 := by decide
  have hlease : leaseFor exampleNet [leaseOfSlot0] 167772180 = some leaseOfSlot0 := by decide
  simp [Sources.snapshot, assemble, emptySlot, hipvs, hslot, hlease]

theorem throttledPass_finds {w : BackendState} {asg : Option AsgGroupInfo × List AsgInstance}
    (state : CleanupState) (h : (emptySlot w asg).snapshot.guardsPass = true →
      "i-a" ∈ (emptySlot w asg).snapshot.asgIds) :
    (throttledPass (emptySlot w asg) state).Finds 167772180 "i-a"
      ⟨167772180, some 0, w, none, some leaseOfSlot0⟩ leaseOfSlot0 where
  backend := by
    show _ ∈ (emptySlot w asg).snapshot.backends
    rw [emptySlot_backends]
    exact List.mem_singleton_self _
  address := rfl
  lease := rfl
  holder := rfl
  known := by decide
  inService := h
  inForce := by
    show SlotLease.isExpired leaseOfSlot0 1000 = false
    decide

theorem succeeded_throttledReply (e : Eff) : Succeeded ⟨e, throttledReply e⟩ := by
  cases e <;> trivial

theorem throttledTwice_run (asg : Option AsgGroupInfo × List AsgInstance)
    (h : (emptySlot .disabled asg).snapshot.guardsPass = true →
      "i-a" ∈ (emptySlot .disabled asg).snapshot.asgIds) :
    ∃ w state, DrainRun 167772180 "i-a" true 300 (throttledTwice asg) w state := by
  have hshown : "i-a" ∈ (emptySlot .draining groupOfTwo).snapshot.asgIds := by decide
  have first := (DrainRun.start ⟨fun _ => none⟩).pass
    (throttledPass_finds ⟨fun _ => none⟩ fun _ => hshown) rfl
    (exec_answering throttledReply _) (forall_mem_answering succeeded_throttledReply _)
  have hw : BackendStatus.weightAfter ⟨167772180, some 0, .draining, none, some leaseOfSlot0⟩
      ((throttledPass (emptySlot .draining groupOfTwo) ⟨fun _ => none⟩).trace.map Event.op) =
        .disabled := by
    decide +kernel
  rw [hw] at first
  exact ⟨_, _, first.pass (throttledPass_finds _ h) rfl (exec_answering throttledReply _)
    (forall_mem_answering succeeded_throttledReply _)⟩

/-- When the query of the group fails in the second pass, the drain is kept. -/
theorem drainKept_by_outage : DrainKept 167772180 "i-a" true (throttledTwice (none, [])) := by
  obtain ⟨w, state, run⟩ := throttledTwice_run (none, []) (by decide)
  refine (drainKept_iff run).mpr (List.pairwise_pair.mpr fun _ => ?_)
  show (emptySlot .disabled (none, [])).snapshot.guardsPass = false
  decide

/-- A pass that finds the instance still in service after its termination failed enables the
backend. -/
theorem failed_termination_enables : ¬ ∀ ip owner decrement grace passes w state,
    DrainRun ip owner decrement grace passes w state → DrainKept ip owner decrement passes := by
  intro h
  obtain ⟨w, state, run⟩ := throttledTwice_run groupOfTwo (by decide)
  have henables : (throttledPass (emptySlot .disabled groupOfTwo)
      (throttledRun (emptySlot .draining groupOfTwo) ⟨fun _ => none⟩).2).Enables 167772180 := by
    unfold CleanupPass.Enables
    decide +kernel
  exact (h _ _ _ _ _ _ _ run).1 _ List.mem_cons_self henables

end Aerosuite.Scale
