import Aerosuite.Scale.Drain
import Aerosuite.Scale.MinSize

/-! The desired capacity over a master cycle.  The cleanup lowers it by one with each termination,
and the scaler sets it to the value of the snapshot plus one, whatever the cleanup has done
before. -/

namespace Aerosuite.Scale

open Program

/-- The desired capacity of a group after requests that AWS accepts. -/
def desiredAfter (desired : ℤ) (ops : List Eff) : ℤ :=
  ops.foldl (fun desired e =>
    match e with
    | .terminateInstance _ true => desired - 1
    | .setDesired n => n
    | _ => desired) desired

/-- The number of terminations with decrement. -/
def decrements (ops : List Eff) : ℕ :=
  ops.countP fun
    | .terminateInstance _ true => true
    | _ => false

/-- A new desired capacity is asked for. -/
def scalesUp (ops : List Eff) : Bool :=
  ops.any fun
    | .setDesired _ => true
    | _ => false

/-- The cleanup asks to terminate the owner of a drained backend with decrement. -/
def SystemSnapshot.Shrinks (snapshot : SystemSnapshot) (decrement : Bool) : Prop :=
  decrement = true ∧ snapshot.atMin = false ∧ ∃ l ∈ snapshot.leases, snapshot.Drained l

section Ops

variable {desired : ℤ} {ops ops' : List Eff}

theorem desiredAfter_append :
    desiredAfter desired (ops ++ ops') = desiredAfter (desiredAfter desired ops) ops' :=
  List.foldl_append

theorem scalesUp_append : scalesUp (ops ++ ops') = (scalesUp ops || scalesUp ops') :=
  List.any_append

theorem decrements_append : decrements (ops ++ ops') = decrements ops + decrements ops' :=
  List.countP_append

theorem desiredAfter_of_not_scalesUp (h : scalesUp ops = false) :
    desiredAfter desired ops = desired - decrements ops := by
  induction ops generalizing desired with
  | nil => simp [desiredAfter, decrements]
  | cons e ops ih =>
    have hops : scalesUp ops = false := by
      simp only [scalesUp, List.any_cons, Bool.or_eq_false_iff] at h
      exact h.2
    have hcons : ∀ d, desiredAfter d ops = d - decrements ops := fun d => ih hops
    cases e with
    | terminateInstance id decrement =>
      cases decrement with
      | false => exact hcons desired
      | true =>
        have hcount : decrements (.terminateInstance id true :: ops) = decrements ops + 1 :=
          List.countP_cons_of_pos rfl
        rw [hcount]
        refine (hcons (desired - 1)).trans ?_
        omega
    | setDesired n => simp [scalesUp] at h
    | _ => exact hcons desired

theorem decrements_eq_zero : decrements ops = 0 ↔ ∀ id, .terminateInstance id true ∉ ops := by
  rw [decrements, List.countP_eq_zero]
  constructor
  · intro h id hmem
    exact h _ hmem rfl
  · intro h e he hmatch
    split at hmatch
    · exact h _ he
    · cases hmatch

end Ops

section Cleanup

variable {snapshot : SystemSnapshot} {clock : PassClock} {decrement : Bool} {grace : ℕ}
  {state state' : CleanupState} {t : List (Event Eff Eff.Reply)} {id : String}

/-- The cleanup sets no desired capacity, and terminates with decrement only where it shrinks the
group. -/
theorem cleanupRun_capacity :
    (cleanupRun snapshot clock false true decrement state grace).Always fun e =>
      (∀ n, e ≠ .setDesired n) ∧
        ∀ id, e = .terminateInstance id true → snapshot.Shrinks decrement := by
  rw [cleanupRun, if_neg (by simp)]
  refine Always.bind (section21_always.mono fun e he => ?_) fun _ =>
    Always.bind (section22_always.mono fun e he => ?_) fun _ =>
      Always.bind (section23_always.mono fun e he => ?_) fun _ => trivial
  · obtain ⟨-, l, hl, hmem⟩ := mem_requests21.mp he
    constructor
    · rintro n rfl
      cases haction : leaseAction snapshot clock l with
      | release backend => cases backend <;> simp [haction, LeaseAction.requests] at hmem
      | _ => simp [haction, LeaseAction.requests] at hmem
    · rintro id rfl
      obtain ⟨hretire, -, hdecrement⟩ := terminate_mem_requests.mp hmem
      obtain ⟨hdrained, hmin⟩ := exists_retire_iff.mp hretire
      exact ⟨hdecrement.symm, hmin, l, hl, hdrained⟩
  · obtain ⟨-, id, -, -, rfl⟩ := he
    exact ⟨fun n heq => (by cases heq), fun id heq => (by cases heq)⟩
  · obtain ⟨b, -, hmem⟩ := List.mem_flatMap.mp he
    split at hmem
    · obtain rfl := List.mem_singleton.mp hmem
      exact ⟨fun n heq => (by cases heq), fun id heq => (by cases heq)⟩
    · cases hmem

theorem not_scalesUp_cleanup
    (h : Exec (cleanupRun snapshot clock false true decrement state grace) t state') :
    scalesUp (t.map Event.op) = false := by
  rw [scalesUp, List.any_eq_false]
  intro e he hmatch
  split at hmatch
  · next n => exact (cleanupRun_capacity.exec_op h he).1 n rfl
  · cases hmatch

theorem decrements_cleanup (hshrinks : ¬ snapshot.Shrinks decrement)
    (h : Exec (cleanupRun snapshot clock false true decrement state grace) t state') :
    decrements (t.map Event.op) = 0 := by
  refine decrements_eq_zero.mpr fun id hmem => ?_
  exact hshrinks ((cleanupRun_capacity.exec_op h hmem).2 id rfl)

/-- When its writes succeed, a cleanup that shrinks the group terminates with decrement. -/
theorem decrements_pos (hshrinks : snapshot.Shrinks decrement) (hgroup : snapshot.asg_group.isSome)
    (h : Exec (cleanupRun snapshot clock false true decrement state grace) t state')
    (hok : ∀ ev ∈ t, Succeeded ev) : decrements (t.map Event.op) ≠ 0 := by
  obtain ⟨rfl, hmin, l, hl, hdrained⟩ := hshrinks
  obtain ⟨ip, hretire⟩ := exists_retire_iff.mpr ⟨hdrained, hmin⟩
  obtain ⟨t₂, hops, -⟩ := exec_cleanupRun_ops h hok
  intro hzero
  refine decrements_eq_zero.mp hzero l.owner_instance_id ?_
  rw [hops]
  exact List.mem_append_left _ (mem_requests21.mpr ⟨guardsPass_of_drained hgroup hdrained, l, hl,
    terminate_mem_requests.mpr ⟨⟨ip, hretire⟩, rfl, rfl⟩⟩)

theorem write_of_terminate {l : SlotLease} {r : Except String Unit} {d : Bool}
    (h : Exec (handleLease snapshot clock false decrement l) t r)
    (hterm : .terminateInstance id d ∈ t.map Event.op) :
    ∃ name value, ⟨.writeFile name value, .ok ()⟩ ∈ t := by
  obtain ⟨⟨ip, hretire⟩, -⟩ := terminate_mem_requests.mp (handleLease_always.exec_op h hterm)
  rw [handleLease_eq, hretire] at h
  rcases exec_andThen.mp h with ⟨t₁, a, t₂, rfl, h₁, -⟩ | ⟨e, h₁, -⟩
  · obtain ⟨r', hr', heq⟩ := exec_context.mp h₁
    obtain rfl := exec_perform.mp hr'
    cases r' with
    | error e => cases heq
    | ok a => exact ⟨weightFile ip, WEIGHT_DISABLED,
      List.mem_append_left _ (List.mem_singleton.mpr rfl)⟩
  · obtain ⟨r', hr', -⟩ := exec_context.mp h₁
    obtain rfl := exec_perform.mp hr'
    simp at hterm

/-- When no file can be written, the cleanup terminates nothing with decrement. -/
theorem decrements_of_no_write
    (h : Exec (cleanupRun snapshot clock false true decrement state grace) t state')
    (hfail : ∀ name value, ⟨.writeFile name value, .ok ()⟩ ∉ t) :
      decrements (t.map Event.op) = 0 := by
  refine decrements_eq_zero.mpr fun id hmem => ?_
  obtain ⟨t₁, t₂, t₃, rfl, h₁, h₂, h₃⟩ := exec_cleanupRun h
  rw [List.map_append, List.map_append, List.mem_append, List.mem_append] at hmem
  rcases hmem with hmem | hmem | hmem
  · rw [section21_eq] at h₁
    split at h₁
    · obtain ⟨ev, hev, hop⟩ := List.mem_map.mp hmem
      obtain ⟨l, -, t', ht', hev', hsub⟩ := exec_forEach_of_mem h₁ hev
      obtain ⟨r, hr⟩ := exec_handleLease_unit.mp ht'
      obtain ⟨name, value, hwrite⟩ := write_of_terminate hr (List.mem_map.mpr ⟨ev, hev', hop⟩)
      exact hfail name value (List.mem_append_left _ (hsub _ hwrite))
    · obtain ⟨rfl, -⟩ := exec_ret.mp h₁
      cases hmem
  · obtain ⟨-, id', -, -, heq⟩ := section22_always.exec_op h₂ hmem
    cases heq
  · obtain ⟨b, -, hreq⟩ := List.mem_flatMap.mp (section23_always.exec_op h₃ hmem)
    split at hreq <;> simp at hreq

end Cleanup

section Cycle

variable {F : Type} [Scalar F] {snapshot : SystemSnapshot} {config : ScaleConfig F}
  {clock : ScalerClock} {group : AsgGroupInfo}

/-- The operations of a pass of the scaler on a group.  It asks for a new capacity when a scale-up
is due. -/
theorem exec_scalerRun_capacity {state state' : ScalerState F} {t : List (Event Eff Eff.Reply)}
    (hgroup : snapshot.asg_group = some group)
    (h : Exec (scalerRun snapshot config state clock false) t state') :
    countU32 (snapshot.activeBackends clock) = 0 ∧ t = [] ∨
      countU32 (snapshot.activeBackends clock) ≠ 0 ∧ ∃ reading rest,
        ⟨.readNetDev, reading⟩ ∈ t ∧ (∀ e ∈ rest, ∃ name value, e = .writeFile name value) ∧
        (¬ ScaleUpDue (snapshot.activeBackends clock) config state clock reading group ∧
            t.map Event.op = .readNetDev :: rest ∨
          ScaleUpDue (snapshot.activeBackends clock) config state clock reading group ∧
            t.map Event.op = .readNetDev :: .setDesired group.raised :: rest) := by
  rcases exec_scalerRun_cases h with ⟨hcount, rfl, -⟩ | ⟨hcount, t₁, scaled, t₂, rfl, h₁, h₂⟩
  · exact .inl ⟨hcount, rfl⟩
  · have hrest : ∀ e ∈ t₂.map Event.op, ∃ name value, e = .writeFile name value := by
      rcases exec_evaluateDrain h₂ with ⟨-, rfl, -⟩ | ⟨b, r, -, rfl, -⟩
      · intro e he
        cases he
      · intro e he
        obtain rfl := List.mem_singleton.mp he
        exact ⟨_, _, rfl⟩
    obtain ⟨reading, ⟨hnot, rfl, -⟩ | ⟨hdue, r, rfl, -⟩⟩ := exec_evaluateScaleUp hgroup h₁
    · exact .inr ⟨hcount, reading, _, by simp, hrest, .inl ⟨hnot, rfl⟩⟩
    · exact .inr ⟨hcount, reading, _, by simp, hrest, .inr ⟨hdue, rfl⟩⟩

theorem capacity_of_writes {ops : List Eff}
    (h : ∀ e ∈ ops, ∃ name value, e = .writeFile name value) :
    scalesUp ops = false ∧ decrements ops = 0 := by
  constructor
  · rw [scalesUp, List.any_eq_false]
    intro e he
    obtain ⟨name, value, rfl⟩ := h e he
    simp
  · refine decrements_eq_zero.mpr fun id hmem => ?_
    obtain ⟨name, value, heq⟩ := h _ hmem
    cases heq

/-- In a cycle that reads the interface as `reading` says and whose requests AWS accepts, the
desired capacity changes by the scale-up, if there is one, and the terminations with decrement. -/
def CapacityAddsUp (snapshot : SystemSnapshot) (config : ScaleConfig F)
    (state : CleanupState × ScalerState F) (clock : PassClock) (scalerClock : ScalerClock)
    (decrement : Bool) (grace : ℕ) (reading : Except String String) : Prop :=
  ∀ group, snapshot.asg_group = some group → ∀ t state',
    Exec (masterCycle snapshot config state clock scalerClock decrement grace) t state' →
    (∀ ev ∈ t, Accepted ev) → (∀ r, ⟨.readNetDev, r⟩ ∈ t → r = reading) →
      desiredAfter group.desired_capacity (t.map Event.op) =
        group.desired_capacity + (if scalesUp (t.map Event.op) then 1 else 0) -
          decrements (t.map Event.op)

/-- What a cycle makes of the desired capacity: without a scale-up what the cleanup leaves, and with
one the value of the snapshot plus one. -/
theorem exec_masterCycle_capacity {state state' : CleanupState × ScalerState F} {clock : PassClock}
    {scalerClock : ScalerClock} {decrement : Bool} {grace : ℕ} {t : List (Event Eff Eff.Reply)}
    {reading : Except String String} (hgroup : snapshot.asg_group = some group)
    (h : Exec (masterCycle snapshot config state clock scalerClock decrement grace) t state')
    (hreading : ∀ r, ⟨.readNetDev, r⟩ ∈ t → r = reading) (desired : ℤ) :
    ∃ t₁ state₁, (∀ ev ∈ t₁, ev ∈ t) ∧
      Exec (cleanupRun snapshot clock false true decrement state.1 grace) t₁ state₁ ∧
      decrements (t.map Event.op) = decrements (t₁.map Event.op) ∧
      (¬ (countU32 (snapshot.activeBackends scalerClock) ≠ 0 ∧
          ScaleUpDue (snapshot.activeBackends scalerClock) config state.2 scalerClock
            reading group) ∧
          scalesUp (t.map Event.op) = false ∨
        (countU32 (snapshot.activeBackends scalerClock) ≠ 0 ∧
          ScaleUpDue (snapshot.activeBackends scalerClock) config state.2 scalerClock
            reading group) ∧
          scalesUp (t.map Event.op) = true ∧ desiredAfter desired (t.map Event.op) =
            group.raised) := by
  obtain ⟨t₁, state₁, t', rfl, h₁, h'⟩ := exec_bind.mp h
  obtain ⟨state₂, h₂, -⟩ := exec_bind_ret.mp h'
  have hcleanup := not_scalesUp_cleanup h₁
  refine ⟨t₁, state₁, fun ev hev => by simp [hev], h₁, ?_⟩
  rw [List.map_append]
  rcases exec_scalerRun_capacity hgroup h₂ with ⟨hcount, rfl⟩ | ⟨hcount, r, rest, hr, hrest, hops⟩
  · refine ⟨by simp, .inl ⟨fun h => h.1 hcount, ?_⟩⟩
    rw [List.map_nil, List.append_nil]
    exact hcleanup
  · obtain rfl := hreading r (List.mem_append_right _ hr)
    obtain ⟨hup, hdec⟩ := capacity_of_writes hrest
    rw [scalesUp_append, decrements_append, desiredAfter_append, hcleanup, Bool.false_or]
    rcases hops with ⟨hnot, hops⟩ | ⟨hdue, hops⟩
    · have hdec' : decrements (.readNetDev :: rest) = decrements rest := by simp [decrements]
      rw [hops, hdec', hdec]
      exact ⟨rfl, .inl ⟨fun h => hnot h.2, hup⟩⟩
    · have hdec' : decrements (.readNetDev :: .setDesired group.raised :: rest) =
        decrements rest := by
        simp [decrements]
      have hdesired : ∀ d, desiredAfter d (.readNetDev :: .setDesired group.raised :: rest) =
          desiredAfter group.raised rest := fun d => rfl
      rw [hops, hdec', hdec, hdesired, desiredAfter_of_not_scalesUp hup, hdec]
      exact ⟨rfl, .inr ⟨⟨hcount, hdue⟩, rfl, by simp⟩⟩

/-- Replies with which all requests succeed except that no file can be written. -/
def readOnlyReply (reading : Except String String) : (e : Eff) → e.Reply
  | .readNetDev => reading
  | .writeFile .. => .error "Read-only file system"
  | e => okReply e

/-- Replies with which all requests succeed. -/
def readingReply (reading : Except String String) : (e : Eff) → e.Reply
  | .readNetDev => reading
  | e => okReply e

/-- The desired capacity adds up in all cycles exactly when a scale-up that is due asks for a value
that is a `u32`, and the cleanup of the same cycle does not shrink the group. -/
theorem capacityAddsUp_iff (snapshot : SystemSnapshot) (config : ScaleConfig F)
    (state : CleanupState × ScalerState F) (clock : PassClock) (scalerClock : ScalerClock)
    (decrement : Bool) (grace : ℕ) (reading : Except String String) :
    CapacityAddsUp snapshot config state clock scalerClock decrement grace reading ↔
      ∀ group, snapshot.asg_group = some group →
        countU32 (snapshot.activeBackends scalerClock) ≠ 0 →
        ScaleUpDue (snapshot.activeBackends scalerClock) config state.2 scalerClock reading group →
          (0 ≤ group.desired_capacity + 1 ∧ group.desired_capacity + 1 < 2 ^ 32) ∧
            ¬ snapshot.Shrinks decrement := by
  constructor
  · intro hadds group hgroup hcount hdue
    have hraised : ∀ ρ : (e : Eff) → e.Reply, (∀ e, Accepted ⟨e, ρ e⟩) → ρ .readNetDev = reading →
        ∃ t₁ state₁, (∀ ev ∈ t₁, ev.reply = ρ ev.op) ∧
          Exec (cleanupRun snapshot clock false true decrement state.1 grace) t₁ state₁ ∧
          (group.raised : ℤ) = group.desired_capacity + 1 - decrements (t₁.map Event.op) := by
      intro ρ haccepted hρ
      have hrun := exec_answering ρ
        (masterCycle snapshot config state clock scalerClock decrement grace)
      have hreply : ∀ r, ⟨.readNetDev, r⟩ ∈
          (answering ρ (masterCycle snapshot config state clock scalerClock decrement grace)).1 →
          r = reading := fun r hr => (mem_answering _ hr).trans hρ
      obtain ⟨t₁, state₁, hsub, h₁, hdec, ⟨hnot, -⟩ | ⟨-, hup, hdesired⟩⟩ :=
        exec_masterCycle_capacity hgroup hrun hreply group.desired_capacity
      · exact absurd ⟨hcount, hdue⟩ hnot
      · refine ⟨t₁, state₁, fun ev hev => mem_answering _ (hsub ev hev), h₁, ?_⟩
        have hsum := hadds group hgroup _ _ hrun (forall_mem_answering haccepted _) hreply
        rw [hdesired, hup, hdec] at hsum
        exact hsum
    have hrange : (group.raised : ℤ) = group.desired_capacity + 1 := by
      obtain ⟨t₁, state₁, hreplies, h₁, hsum⟩ := hraised (readOnlyReply reading)
        (fun e => by cases e <;> trivial) rfl
      rw [decrements_of_no_write h₁ fun name value hev => by cases hreplies _ hev] at hsum
      omega
    constructor
    · rw [raised_eq] at hrange
      omega
    · intro hshrinks
      obtain ⟨t₁, state₁, hreplies, h₁, hsum⟩ := hraised (readingReply reading)
        (fun e => by cases e <;> trivial) rfl
      have hok : ∀ ev ∈ t₁, Succeeded ev := by
        rintro ⟨op, reply⟩ hev
        obtain rfl : reply = readingReply reading op := hreplies _ hev
        cases op <;> trivial
      have hpos := decrements_pos hshrinks (by rw [hgroup]; rfl) h₁ hok
      omega
  · intro hcond group hgroup t state' hrun _ hreading
    obtain ⟨t₁, state₁, -, h₁, hdec, ⟨-, hup⟩ | ⟨⟨hcount, hdue⟩, hup, hdesired⟩⟩ :=
      exec_masterCycle_capacity hgroup hrun hreading group.desired_capacity
    · rw [desiredAfter_of_not_scalesUp hup, hup]
      simp
    · obtain ⟨⟨hlow, hhigh⟩, hshrinks⟩ := hcond group hgroup hcount hdue
      rw [hdesired, hup, hdec, decrements_cleanup hshrinks h₁, raised_eq,
        Int.emod_eq_of_lt hlow hhigh]
      simp

end Cycle

/-- Slot 0 is drained and has no connection, and slot 1 is active with 3000 connections, in a group
of three. -/
def drainedUnderLoad : SystemSnapshot :=
  assemble exampleNet [⟨167772180, .draining⟩, ⟨167772181, .active⟩]
    [⟨0, "i-a", 2000⟩, ⟨1, "i-b", 2000⟩]
    (some ⟨"pool", 3, 1, 5⟩, [⟨"i-a", "InService", "Healthy"⟩, ⟨"i-b", "InService", "Healthy"⟩])
    [⟨167772180, 0, 0⟩, ⟨167772181, 3000, 0⟩]

/-- The scale-up of the cycle takes the termination back. -/
theorem scaleUp_cancels_termination : ¬ ∀ snapshot (config : ScaleConfig ℚ) state clock scalerClock
    decrement grace reading,
    CapacityAddsUp snapshot config state clock scalerClock decrement grace reading := by
  intro h
  have hadds := h drainedUnderLoad defaultConfig (⟨fun _ => none⟩, .default)
    ⟨fun _ => 1000, fun _ => 10 ^ 9⟩ ⟨fun _ => 1000, 10 ^ 9, 10 ^ 9, 10 ^ 9, 10 ^ 9, 10 ^ 9, 10 ^ 9⟩
    true 300 (.ok "") ⟨"pool", 3, 1, 5⟩ rfl _ _ (exec_answering okReply _)
    (forall_mem_answering accepted_okReply _) fun r hr => mem_answering _ hr
  exact absurd hadds (by decide +kernel)

end Aerosuite.Scale
