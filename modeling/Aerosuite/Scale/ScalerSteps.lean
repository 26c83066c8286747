import Aerosuite.Scale.Scaler

/-! What a pass of the scaler does, failures included.  It reads the counters of the interface, asks
for one more instance when the triggers and the guards say so, and may then drain a backend.  Both
actions enter the state only when they succeed. -/

namespace Aerosuite.Scale

open Program

variable {F : Type}

/-- The operation asks for a new desired capacity. -/
def Eff.setsCapacity : Eff → Bool
  | .setDesired _ => true
  | _ => false

/-- The operation writes a weight file. -/
def Eff.writesFile : Eff → Bool
  | .writeFile .. => true
  | _ => false

/-- The average of the sessions, rounded up. -/
def avgSessions (active : List BackendStatus) : ℕ :=
  (totalSessions active + countU32 active - 1) % 2 ^ 32 / countU32 active

/-- The desired capacity that a scale-up asks for. -/
def AsgGroupInfo.raised (group : AsgGroupInfo) : ℕ := ((group.desired_capacity + 1) % 2 ^ 32).toNat

theorem raised_eq (group : AsgGroupInfo) :
    (group.raised : ℤ) = (group.desired_capacity + 1) % 2 ^ 32 :=
  Int.toNat_of_nonneg (Int.emod_nonneg _ (by decide))

/-- The reading of the interface that the content of `/proc/net/dev` gives. -/
def ifaceReading (at_ns : ℕ) : Except String String → Except String IfaceSnapshot
  | .ok content =>
    match parseIfaceRxBytes content BW_IFACE with
    | some rx_bytes => .ok ⟨rx_bytes, at_ns⟩
    | none => .error s!"interface '{BW_IFACE}' not found in /proc/net/dev"
  | .error e => .error s!"failed to read /proc/net/dev: {e}"

theorem readIfaceSnapshot_bind {α : Type} (at_ns : ℕ) (f : Except String IfaceSnapshot → Daemon α) :
    (readIfaceSnapshot at_ns >>= f) =
      .call .readNetDev fun reading => f (ifaceReading at_ns reading) := by
  refine congrArg (call Eff.readNetDev) (funext fun reading => ?_)
  cases reading with
  | error e => rfl
  | ok content =>
    show Program.bind (match parseIfaceRxBytes content BW_IFACE with
      | some rx_bytes => .ret (.ok ⟨rx_bytes, at_ns⟩)
      | none => .ret (.error _)) f = _
    rw [ifaceReading]
    cases parseIfaceRxBytes content BW_IFACE <;> rfl

namespace ScalerState

variable (state : ScalerState F) (clock : ScalerClock)

/-- The state after a scale-up that succeeded. -/
def scaledUp : ScalerState F :=
  { state with scale_up_cycles := 0, last_scale_up := some clock.scale_up_done }

/-- The state after a drain that was initiated. -/
def drained : ScalerState F :=
  { state with drain_cycles := 0, drain_candidate := none, last_drain := some clock.drain_done }

/-- The state when no backend is active. -/
def idle : ScalerState F :=
  { state with scale_up_cycles := 0, drain_cycles := 0, drain_candidate := none }

theorem afterReading_eq [Scalar F] (reading : Except String IfaceSnapshot) :
    ∃ bw_prev bw_smoothed bw_raw_bps, state.afterReading reading =
      { state with bw_prev, bw_smoothed, bw_raw_bps } := by
  cases reading with
  | error e => exact ⟨_, _, _, rfl⟩
  | ok current =>
    simp only [afterReading, observeBandwidth]
    split
    · exact ⟨_, _, _, rfl⟩
    · split_ifs <;> exact ⟨_, _, _, rfl⟩

end ScalerState

section Drain

variable {snapshot : SystemSnapshot} {active : List BackendStatus} {config : ScaleConfig F}
  {state state' : ScalerState F} {clock : ScalerClock}

/-- The guards of `evaluate_drain` let a candidate be drained. -/
structure DrainDue (snapshot : SystemSnapshot) (active : List BackendStatus)
    (config : ScaleConfig F) (state : ScalerState F) (clock : ScalerClock) : Prop where
  several : 1 < countU32 active
  aboveMin : ∃ group, snapshot.asg_group = some group ∧ group.min_size < group.desired_capacity
  draining : snapshot.drainingCount < config.max_concurrent_draining
  gate : totalSessions active / countU32 active < config.drain_threshold
  hysteresis : config.drain_hysteresis_cycles ≤ (state.drain_cycles + 1) % 2 ^ 32
  cooldown : ∀ last, state.last_drain = some last →
    config.drain_cooldown_secs ≤ (clock.drain_check - last) / 10 ^ 9

theorem drainDecision_eq_some {b : BackendStatus} :
    (drainDecision snapshot active config state clock).2 = some b ↔
      DrainDue snapshot active config state clock ∧ drainCandidate snapshot active = some b := by
  unfold drainDecision
  cases hgroup : snapshot.asg_group with
  | none =>
    refine ⟨fun h => (by cases h), fun ⟨hdue, _⟩ => ?_⟩
    obtain ⟨group, hg, -⟩ := hdue.aboveMin
    cases hgroup.symm.trans hg
  | some group =>
    dsimp only
    split_ifs with h₁ h₂ h₃ h₄ h₅ h₆
    · refine ⟨fun h => (by cases h), fun ⟨hdue, _⟩ => ?_⟩
      have := hdue.several
      omega
    · refine ⟨fun h => (by cases h), fun ⟨hdue, _⟩ => ?_⟩
      obtain ⟨group', hg, hlt⟩ := hdue.aboveMin
      obtain rfl := Option.some.inj (hgroup.symm.trans hg)
      omega
    · refine ⟨fun h => (by cases h), fun ⟨hdue, _⟩ => ?_⟩
      have := hdue.draining
      omega
    · refine ⟨fun h => (by cases h), fun ⟨hdue, _⟩ => ?_⟩
      have := hdue.gate
      omega
    · refine ⟨fun h => (by cases h), fun ⟨hdue, _⟩ => ?_⟩
      have := hdue.hysteresis
      omega
    · refine ⟨fun h => (by cases h), fun ⟨hdue, _⟩ => ?_⟩
      obtain ⟨last, hlast, hlt⟩ := (Option.any_eq_true _ _).mp h₆
      have hle := hdue.cooldown last hlast
      simp only [decide_eq_true_eq] at hlt
      omega
    · refine ⟨fun h => ⟨⟨by omega, ⟨group, hgroup, by omega⟩, by omega, by omega, by omega, ?_⟩, h⟩,
        fun h => h.2⟩
      intro last hlast
      by_contra hlt
      exact h₆ ((Option.any_eq_true _ _).mpr ⟨last, hlast, by simpa using hlt⟩)

theorem drainCandidate_mem {b : BackendStatus} (h : drainCandidate snapshot active = some b) :
    b ∈ active := by
  rw [drainCandidate] at h
  apply (List.mem_insertionSort (r := fun a b : BackendStatus => a.sessions ≤ b.sessions)).mp
  split at h
  · cases h
  · next least hleast =>
    split at h
    · obtain rfl := Option.some.inj h
      exact List.mem_of_head? hleast
    · split at h
      · exact List.mem_of_getLast? h
      · cases h

/-- The decision on a drain changes the counter and the candidate only, and counts a drain that is
due. -/
theorem drainDecision_fst (snapshot : SystemSnapshot) (active : List BackendStatus)
    (config : ScaleConfig F) (state : ScalerState F) (clock : ScalerClock) :
    (drainDecision snapshot active config state clock).1.last_scale_up = state.last_scale_up ∧
      (drainDecision snapshot active config state clock).1.scale_up_cycles = state.scale_up_cycles ∧
      (drainDecision snapshot active config state clock).1.last_drain = state.last_drain ∧
      ((drainDecision snapshot active config state clock).2.isSome →
        (drainDecision snapshot active config state clock).1.drain_cycles =
          (state.drain_cycles + 1) % 2 ^ 32) := by
  unfold drainDecision
  split
  · exact ⟨rfl, rfl, rfl, fun h => by cases h⟩
  · dsimp only
    split_ifs
    · exact ⟨rfl, rfl, rfl, fun h => by cases h⟩
    · exact ⟨rfl, rfl, rfl, fun h => by cases h⟩
    · exact ⟨rfl, rfl, rfl, fun h => by cases h⟩
    · exact ⟨rfl, rfl, rfl, fun h => by cases h⟩
    · exact ⟨rfl, rfl, rfl, fun h => by cases h⟩
    · exact ⟨rfl, rfl, rfl, fun h => by cases h⟩
    · exact ⟨rfl, rfl, rfl, fun _ => rfl⟩

theorem drainDue_congr (hcycles : state'.drain_cycles = state.drain_cycles)
    (hlast : state'.last_drain = state.last_drain) :
    DrainDue snapshot active config state' clock ↔ DrainDue snapshot active config state clock := by
  constructor
  · intro h
    exact ⟨h.several, h.aboveMin, h.draining, h.gate, hcycles ▸ h.hysteresis, hlast ▸ h.cooldown⟩
  · intro h
    exact ⟨h.several, h.aboveMin, h.draining, h.gate, hcycles ▸ h.hysteresis, hlast ▸ h.cooldown⟩

end Drain

section ScaleUp

variable [Scalar F] (active : List BackendStatus) (config : ScaleConfig F) (state : ScalerState F)
  (clock : ScalerClock) (reading : Except String String)

/-- The triggers of a cycle that reads the interface. -/
def scaleTriggers : Triggers :=
  let state := state.afterReading (ifaceReading clock.net_dev reading)
  triggers config state
    (computeSmoothedSlope state.slope_samples (avgSessions active) clock.scale_up)
    (avgSessions active) (countU32 active)

def Triggers.fired (triggers : Triggers) : Bool := triggers.hard || (triggers.slope || triggers.bw)

/-- The counter after the triggers of a cycle. -/
def scaleUpCount (cycles : ℕ) (triggers : Triggers) : ℕ :=
  if triggers.hard then config.scale_up_hysteresis_cycles
  else if triggers.slope || triggers.bw then (cycles + 1) % 2 ^ 32
  else 0

/-- The state after the triggers of a cycle, before the guards. -/
def scaleUpCounted : ScalerState F :=
  let state' := state.afterReading (ifaceReading clock.net_dev reading)
  { state' with
    slope_samples := pushSample state'.slope_samples (clock.scale_up, avgSessions active)
    scale_up_cycles :=
      scaleUpCount config state'.scale_up_cycles (scaleTriggers active config state clock reading) }

/-- The guards of a scale-up. -/
structure ScaleUpAllowed (group : AsgGroupInfo) (config : ScaleConfig F) (state : ScalerState F)
    (clock : ScalerClock) : Prop where
  hysteresis : config.scale_up_hysteresis_cycles ≤ state.scale_up_cycles
  belowMax : group.desired_capacity < group.max_size
  cooldown : ∀ last, state.last_scale_up = some last →
    config.scale_up_cooldown_secs ≤ (clock.scale_up_check - last) / 10 ^ 9

/-- A cycle that reads the interface scales up. -/
structure ScaleUpDue (group : AsgGroupInfo) : Prop where
  fired : (scaleTriggers active config state clock reading).fired = true
  allowed : ScaleUpAllowed group config (scaleUpCounted active config state clock reading) clock

/-- The counters and the times that the triggers leave alone. -/
theorem scaleUpCounted_eq :
    (scaleUpCounted active config state clock reading).last_scale_up = state.last_scale_up ∧
      (scaleUpCounted active config state clock reading).last_drain = state.last_drain ∧
      (scaleUpCounted active config state clock reading).drain_cycles = state.drain_cycles ∧
      (scaleUpCounted active config state clock reading).drain_candidate =
        state.drain_candidate := by
  obtain ⟨prev, smoothed, raw, heq⟩ := state.afterReading_eq (ifaceReading clock.net_dev reading)
  simp only [scaleUpCounted, heq, and_self]

end ScaleUp

section Runs

variable {snapshot : SystemSnapshot} {active : List BackendStatus} {config : ScaleConfig F}
  {state state' : ScalerState F} {clock : ScalerClock} {group : AsgGroupInfo}
  {t : List (Event Eff Eff.Reply)}

theorem exec_attemptScaleUp
    (h : Exec (attemptScaleUp group config state clock false) t state') :
    ¬ ScaleUpAllowed group config state clock ∧ t = [] ∧ state' = state ∨
      ScaleUpAllowed group config state clock ∧ ∃ r, t = [⟨.setDesired group.raised, r⟩] ∧
        state' = if r.isOk then state.scaledUp clock else state := by
  unfold attemptScaleUp at h
  split_ifs at h with h₁ h₂ h₃ hdry
  · obtain ⟨rfl, rfl⟩ := exec_ret.mp h
    exact .inl ⟨fun hallowed => absurd hallowed.hysteresis (by omega), rfl, rfl⟩
  · obtain ⟨rfl, rfl⟩ := exec_ret.mp h
    exact .inl ⟨fun hallowed => absurd hallowed.belowMax (by omega), rfl, rfl⟩
  · obtain ⟨rfl, rfl⟩ := exec_ret.mp h
    obtain ⟨last, hlast, hlt⟩ := (Option.any_eq_true _ _).mp h₃
    refine .inl ⟨fun hallowed => ?_, rfl, rfl⟩
    have hle := hallowed.cooldown last hlast
    simp only [decide_eq_true_eq] at hlt
    omega
  · exact absurd hdry (by simp)
  · replace h : Exec (.call (.setDesired group.raised) _) t state' := h
    obtain ⟨r, t', rfl, h'⟩ := exec_call.mp h
    refine .inr ⟨⟨by omega, by omega, fun last hlast => ?_⟩, r, ?_⟩
    · by_contra hlt
      exact h₃ ((Option.any_eq_true _ _).mpr ⟨last, hlast, by simpa using hlt⟩)
    · cases r <;> obtain ⟨rfl, rfl⟩ := exec_ret.mp h' <;> exact ⟨rfl, rfl⟩

/-- What the evaluation of the drain does: it writes the weight of the backend to drain, if there is
one. -/
theorem exec_evaluateDrain
    (h : Exec (evaluateDrain snapshot active config state clock false) t state') :
    (drainDecision snapshot active config state clock).2 = none ∧ t = [] ∧
        state' = (drainDecision snapshot active config state clock).1 ∨
      ∃ b r, (drainDecision snapshot active config state clock).2 = some b ∧
        t = [⟨.writeFile (weightFile b.ip) WEIGHT_DRAINING, r⟩] ∧
        state' = if r.isOk then (drainDecision snapshot active config state clock).1.drained clock
          else (drainDecision snapshot active config state clock).1 := by
  unfold evaluateDrain at h
  dsimp only at h
  cases hdecision : (drainDecision snapshot active config state clock).2 with
  | none =>
    rw [hdecision] at h
    obtain ⟨rfl, rfl⟩ := exec_ret.mp h
    exact .inl ⟨rfl, rfl, rfl⟩
  | some b =>
    rw [hdecision] at h
    obtain ⟨t₁, res, t₂, rfl, h₁, h₂⟩ := exec_bind.mp h
    obtain ⟨r, hr, rfl⟩ := exec_context.mp h₁
    obtain rfl := exec_perform.mp hr
    refine .inr ⟨b, r, rfl, ?_⟩
    cases r <;> obtain ⟨rfl, rfl⟩ := exec_ret.mp h₂ <;> exact ⟨rfl, rfl⟩

/-- The evaluation of the drain keeps what the scale-up looks at. -/
theorem scaleUp_kept_of_drain
    (h : Exec (evaluateDrain snapshot active config state clock false) t state') :
    t.filter (·.op.setsCapacity) = [] ∧ state'.last_scale_up = state.last_scale_up ∧
      state'.scale_up_cycles = state.scale_up_cycles := by
  obtain ⟨hlast, hcycles, -⟩ := drainDecision_fst snapshot active config state clock
  rcases exec_evaluateDrain h with ⟨-, rfl, rfl⟩ | ⟨b, r, -, rfl, rfl⟩
  · exact ⟨rfl, hlast, hcycles⟩
  · refine ⟨rfl, ?_⟩
    split <;> exact ⟨hlast, hcycles⟩

variable [Scalar F]

theorem exec_evaluateScaleUp_of_none {avg_sessions active_count : ℕ} {dry_run : Bool}
    (hgroup : snapshot.asg_group = none)
    (h : Exec (evaluateScaleUp snapshot config state avg_sessions active_count clock dry_run)
      t state') :
    t = [] ∧ state' = state := by
  unfold evaluateScaleUp at h
  rw [hgroup] at h
  exact exec_ret.mp h

/-- The evaluation of the scale-up reads the interface, counts the triggers, and looks at the guards
when one of them has fired. -/
theorem evaluateScaleUp_eq (hgroup : snapshot.asg_group = some group) (dry_run : Bool) :
    evaluateScaleUp snapshot config state (avgSessions active) (countU32 active) clock dry_run =
      .call .readNetDev fun reading =>
        if (scaleTriggers active config state clock reading).fired then
          attemptScaleUp group config
            (scaleUpCounted active config state clock reading) clock dry_run
        else .ret (scaleUpCounted active config state clock reading) := by
  unfold evaluateScaleUp
  rw [hgroup]
  dsimp only
  rw [readIfaceSnapshot_bind]
  refine congrArg (call Eff.readNetDev) (funext fun reading => ?_)
  have hcount : ∀ n, n = scaleUpCount config
      (state.afterReading (ifaceReading clock.net_dev reading)).scale_up_cycles
      (scaleTriggers active config state clock reading) →
      ({ state.afterReading (ifaceReading clock.net_dev reading) with
        slope_samples := pushSample
          (state.afterReading (ifaceReading clock.net_dev reading)).slope_samples
          (clock.scale_up, avgSessions active)
        scale_up_cycles := n } : ScalerState F) =
          scaleUpCounted active config state clock reading := by
    rintro n rfl
    rfl
  show (if (scaleTriggers active config state clock reading).hard then _
    else if (scaleTriggers active config state clock reading).slope ||
      (scaleTriggers active config state clock reading).bw then _ else _) = _
  cases hhard : (scaleTriggers active config state clock reading).hard with
  | true =>
    simp only [Triggers.fired, hhard, Bool.true_or, if_true]
    rw [hcount _ (by simp [scaleUpCount, hhard])]
  | false =>
    cases hother : (scaleTriggers active config state clock reading).slope ||
      (scaleTriggers active config state clock reading).bw with
    | true =>
      simp only [Triggers.fired, hhard, hother, Bool.false_or, Bool.false_eq_true,
        if_true, if_false]
      rw [hcount _ (by simp [scaleUpCount, hhard, hother])]
    | false =>
      simp only [Triggers.fired, hhard, hother, Bool.false_or, Bool.false_eq_true, if_false]
      exact congrArg ret (hcount _ (by simp [scaleUpCount, hhard, hother]))

/-- A cycle scales up exactly when it is due. -/
theorem exec_evaluateScaleUp (hgroup : snapshot.asg_group = some group)
    (h : Exec (evaluateScaleUp snapshot config state (avgSessions active) (countU32 active) clock
      false) t state') :
    ∃ reading,
      ¬ ScaleUpDue active config state clock reading group ∧ t = [⟨.readNetDev, reading⟩] ∧
        state' = scaleUpCounted active config state clock reading ∨
      ScaleUpDue active config state clock reading group ∧
        ∃ r, t = [⟨.readNetDev, reading⟩, ⟨.setDesired group.raised, r⟩] ∧
          state' = if r.isOk then (scaleUpCounted active config state clock reading).scaledUp clock
            else scaleUpCounted active config state clock reading := by
  rw [evaluateScaleUp_eq hgroup] at h
  obtain ⟨reading, t', rfl, h'⟩ := exec_call.mp h
  refine ⟨reading, ?_⟩
  by_cases hfired : (scaleTriggers active config state clock reading).fired = true
  · rw [if_pos hfired] at h'
    rcases exec_attemptScaleUp h' with ⟨hnot, rfl, rfl⟩ | ⟨hallowed, r, rfl, heq⟩
    · exact .inl ⟨fun hdue => hnot hdue.allowed, rfl, rfl⟩
    · exact .inr ⟨⟨hfired, hallowed⟩, r, rfl, heq⟩
  · rw [if_neg hfired] at h'
    obtain ⟨rfl, rfl⟩ := exec_ret.mp h'
    exact .inl ⟨fun hdue => hfired hdue.fired, rfl, rfl⟩

/-- The evaluation of the scale-up keeps what the drain looks at. -/
theorem drain_kept_of_scaleUp (h : Exec (evaluateScaleUp snapshot config state (avgSessions active)
    (countU32 active) clock false) t state') :
    state'.drain_cycles = state.drain_cycles ∧ state'.last_drain = state.last_drain := by
  cases hgroup : snapshot.asg_group with
  | none =>
    obtain ⟨-, rfl⟩ := exec_evaluateScaleUp_of_none hgroup h
    exact ⟨rfl, rfl⟩
  | some group =>
    obtain ⟨reading, ⟨-, -, rfl⟩ | ⟨-, r, -, rfl⟩⟩ := exec_evaluateScaleUp hgroup h
    · obtain ⟨-, hlast, hcycles, -⟩ := scaleUpCounted_eq active config state clock reading
      exact ⟨hcycles, hlast⟩
    · obtain ⟨-, hlast, hcycles, -⟩ := scaleUpCounted_eq active config state clock reading
      split <;> exact ⟨hcycles, hlast⟩

theorem scaleUp_writes_nothing {avg_sessions active_count : ℕ}
    (h : Exec (evaluateScaleUp snapshot config state avg_sessions active_count clock false)
      t state') : t.filter (·.op.writesFile) = [] := by
  rw [List.filter_eq_nil_iff]
  intro ev hev
  rcases evaluateScaleUp_always.exec h ev hev with hop | ⟨-, n, hop⟩ <;>
    simp [hop, Eff.writesFile]

/-- A pass of the scaler evaluates the scale-up and then the drain, unless no backend is active. -/
theorem exec_scalerRun_cases {dry_run : Bool}
    (h : Exec (scalerRun snapshot config state clock dry_run) t state') :
    countU32 (snapshot.activeBackends clock) = 0 ∧ t = [] ∧ state' = state.idle ∨
      countU32 (snapshot.activeBackends clock) ≠ 0 ∧ ∃ t₁ scaled t₂, t = t₁ ++ t₂ ∧
        Exec (evaluateScaleUp snapshot config state (avgSessions (snapshot.activeBackends clock))
          (countU32 (snapshot.activeBackends clock)) clock dry_run) t₁ scaled ∧
        Exec (evaluateDrain snapshot (snapshot.activeBackends clock) config scaled clock dry_run) t₂
          state' := by
  unfold scalerRun at h
  dsimp only at h
  split at h
  · next hcount =>
    obtain ⟨rfl, rfl⟩ := exec_ret.mp h
    exact .inl ⟨hcount, rfl, rfl⟩
  · next hcount =>
    obtain ⟨t₁, scaled, t₂, rfl, h₁, h₂⟩ := exec_bind.mp h
    exact .inr ⟨hcount, t₁, scaled, t₂, rfl, h₁, h₂⟩

theorem scalerRun_dry :
    (scalerRun snapshot config state clock true).Always (· = .readNetDev) := by
  unfold scalerRun
  dsimp only
  split
  · trivial
  · refine Always.bind (evaluateScaleUp_always.mono fun e he => ?_) fun state => ?_
    · rcases he with rfl | ⟨hdry, -⟩
      · rfl
      · cases hdry
    · unfold evaluateDrain
      dsimp only
      split
      · trivial
      · refine Always.bind ?_ fun r => ?_
        · trivial
        · cases r <;> trivial

/-- The scale-up of a pass: it asks for a new capacity at most once, and then because that was
due. -/
theorem exec_scalerRun_scaleUp (h : Exec (scalerRun snapshot config state clock false) t state') :
    t.filter (·.op.setsCapacity) = [] ∧ state'.last_scale_up = state.last_scale_up ∨
      ∃ group reading r, snapshot.asg_group = some group ∧
        ScaleUpDue (snapshot.activeBackends clock) config state clock reading group ∧
        ⟨.readNetDev, reading⟩ ∈ t ∧
        t.filter (·.op.setsCapacity) = [⟨.setDesired group.raised, r⟩] ∧
        state'.last_scale_up = (if r.isOk then some clock.scale_up_done else state.last_scale_up) ∧
        state'.scale_up_cycles = if r.isOk then 0 else
          (scaleUpCounted (snapshot.activeBackends clock) config state clock
            reading).scale_up_cycles := by
  rcases exec_scalerRun_cases h with ⟨-, rfl, rfl⟩ | ⟨-, t₁, scaled, t₂, rfl, h₁, h₂⟩
  · exact .inl ⟨rfl, rfl⟩
  · have hdrain := scaleUp_kept_of_drain h₂
    rw [List.filter_append, hdrain.1, List.append_nil, hdrain.2.1, hdrain.2.2]
    cases hgroup : snapshot.asg_group with
    | none =>
      obtain ⟨rfl, rfl⟩ := exec_evaluateScaleUp_of_none hgroup h₁
      exact .inl ⟨rfl, rfl⟩
    | some group =>
      obtain ⟨reading, ⟨-, rfl, rfl⟩ | ⟨hdue, r, rfl, rfl⟩⟩ := exec_evaluateScaleUp hgroup h₁
      · exact .inl ⟨rfl, (scaleUpCounted_eq _ _ _ _ _).1⟩
      · refine .inr ⟨group, reading, r, rfl, hdue, by simp, rfl, ?_⟩
        cases r with
        | ok a => exact ⟨rfl, rfl⟩
        | error e => exact ⟨(scaleUpCounted_eq _ _ _ _ _).1, rfl⟩

/-- The drain of a pass: it writes at most one weight, and then because a drain was due. -/
theorem exec_scalerRun_drain (h : Exec (scalerRun snapshot config state clock false) t state') :
    t.filter (·.op.writesFile) = [] ∧ state'.last_drain = state.last_drain ∨
      ∃ b r, b ∈ snapshot.activeBackends clock ∧
        DrainDue snapshot (snapshot.activeBackends clock) config state clock ∧
        t.filter (·.op.writesFile) = [⟨.writeFile (weightFile b.ip) WEIGHT_DRAINING, r⟩] ∧
        state'.last_drain = (if r.isOk then some clock.drain_done else state.last_drain) ∧
        state'.drain_cycles = if r.isOk then 0 else (state.drain_cycles + 1) % 2 ^ 32 := by
  rcases exec_scalerRun_cases h with ⟨-, rfl, rfl⟩ | ⟨-, t₁, scaled, t₂, rfl, h₁, h₂⟩
  · exact .inl ⟨rfl, rfl⟩
  · obtain ⟨hcycles, hlast⟩ := drain_kept_of_scaleUp h₁
    rw [List.filter_append, scaleUp_writes_nothing h₁, List.nil_append, ← hcycles, ← hlast]
    obtain ⟨-, -, hlast', hcounted⟩ := drainDecision_fst snapshot
      (snapshot.activeBackends clock) config scaled clock
    rcases exec_evaluateDrain h₂ with ⟨-, rfl, rfl⟩ | ⟨b, r, hsome, rfl, rfl⟩
    · exact .inl ⟨rfl, hlast'⟩
    · obtain ⟨hdue, hcandidate⟩ := drainDecision_eq_some.mp hsome
      refine .inr ⟨b, r, drainCandidate_mem hcandidate,
        (drainDue_congr hcycles hlast).mp hdue, rfl, ?_⟩
      cases r with
      | ok a => exact ⟨rfl, rfl⟩
      | error e => exact ⟨hlast', hcounted (by rw [hsome]; rfl)⟩

end Runs

end Aerosuite.Scale
