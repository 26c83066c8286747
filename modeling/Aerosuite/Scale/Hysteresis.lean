import Aerosuite.Scale.ScalerRuns

/-! The hysteresis of the scaler over its runs.  `scale_up_cycles` should count the cycles in a row
that confirm a trigger, and `drain_cycles` those in a row with an open gate.  The hard trigger sets
the first to its threshold, and an early return of `evaluate_drain` keeps the second. -/

namespace Aerosuite.Scale

open Program History

variable {F : Type}

/-- A cycle of the scaler: what it looks at, the state before it, what it does, and the state after
it. -/
structure ScalerCycle (F : Type) where
  snapshot : SystemSnapshot
  clock : ScalerClock
  before : ScalerState F
  trace : List (Event Eff Eff.Reply)
  after : ScalerState F

/-- Runs of the scaler from its default state, the newest cycle first. -/
inductive ScalerCycles [Scalar F] (config : ScaleConfig F) (dry_run : Bool) :
    List (ScalerCycle F) → ScalerState F → Prop
  | start : ScalerCycles config dry_run [] .default
  | cycle {cycles : List (ScalerCycle F)} {c : ScalerCycle F}
      (run : ScalerCycles config dry_run cycles c.before)
      (exec : Exec (scalerRun c.snapshot config c.before c.clock dry_run) c.trace c.after) :
      ScalerCycles config dry_run (c :: cycles) c.after

def ScalerPass.cycle (p : ScalerPass F) : ScalerCycle F :=
  ⟨p.src.snapshot, p.clock, p.before, p.trace, p.after⟩

/-- The passes of a daemon that starts with the default state are such a run. -/
theorem ScalerHistory.cycles [Scalar F] {config : ScaleConfig F} {dry_run : Bool}
    {passes : List (ScalerPass F)} {state : ScalerState F}
    (run : ScalerHistory config dry_run passes state)
    (hstart : ((passes.map ScalerPass.before).getLast?).getD state = .default) :
    ScalerCycles config dry_run (passes.map ScalerPass.cycle) state := by
  induction run with
  | start =>
    obtain rfl := hstart
    exact .start
  | @pass passes p run exec _ _ _ ih =>
    refine .cycle (c := p.cycle) (ih ?_) exec
    cases passes with
    | nil => exact hstart
    | cons q passes => rwa [List.map_cons, List.map_cons, List.getLast?_cons_cons] at hstart

section ScaleUp

variable [Scalar F]

/-- The slope or the bandwidth trigger fired. -/
def Triggers.soft (triggers : Triggers) : Bool := triggers.slope || triggers.bw

namespace ScalerCycle

variable (config : ScaleConfig F) (c : ScalerCycle F)

/-- The backends that the scale decisions of the cycle are about. -/
def active : List BackendStatus := c.snapshot.activeBackends c.clock

/-- The triggers of a cycle that evaluates them.  It reads the interface. -/
def evaluated : Option Triggers :=
  c.trace.findSome? fun ev =>
    match ev with
    | ⟨.readNetDev, reading⟩ => some (scaleTriggers c.active config c.before c.clock reading)
    | _ => none

/-- The cycle issues a scale-up, which may fail. -/
def ScaleUp : Prop := ∃ n r, ⟨.setDesired n, r⟩ ∈ c.trace

/-- The cycle initiates a drain, which may fail. -/
def Drain : Prop := ∃ name r, ⟨.writeFile name WEIGHT_DRAINING, r⟩ ∈ c.trace

/-- The hard trigger fires in the cycle. -/
def Hard : Prop := ∃ triggers, c.evaluated config = some triggers ∧ triggers.hard = true

/-- Neither the capacity nor the cooldown nor AWS blocks a scale-up in the cycle. -/
structure Unblocked : Prop where
  belowMax : ∀ group, c.snapshot.asg_group = some group → group.desired_capacity < group.max_size
  cooldown : ∀ last, c.before.last_scale_up = some last →
    config.scale_up_cooldown_secs ≤ (c.clock.scale_up_check - last) / 10 ^ 9
  accepted : ∀ n e, ⟨.setDesired n, .error e⟩ ∉ c.trace

end ScalerCycle

/-- The number of evaluated cycles in a row, up to the newest one, in which the slope or the
bandwidth trigger fired. -/
def confirmations (config : ScaleConfig F) (cycles : List (ScalerCycle F)) : ℕ :=
  streak Triggers.soft (cycles.filterMap (ScalerCycle.evaluated config))

/-- A scale-up without the hard trigger is confirmed in the whole window that ends with it. -/
def ScaleUpsConfirmed (config : ScaleConfig F) (cycles : List (ScalerCycle F)) : Prop :=
  ∀ c older, c :: older <:+ cycles → c.ScaleUp → ¬ c.Hard config →
    config.scale_up_hysteresis_cycles ≤ confirmations config (c :: older)

/-- The hard trigger scales up when it fires, or is confirmed itself in all cycles of the window
but one. -/
def HardScalesUp (config : ScaleConfig F) (cycles : List (ScalerCycle F)) : Prop :=
  ∀ c older, c :: older <:+ cycles → c.Hard config →
    c.Unblocked config ∨ config.scale_up_hysteresis_cycles - 1 ≤ confirmations config (c :: older)

variable {config : ScaleConfig F} {c : ScalerCycle F} {cycles : List (ScalerCycle F)}
  {state : ScalerState F} {dry_run : Bool}

/-- What a cycle does with the scale-up counter.  A cycle without evaluation does not raise it. -/
theorem scaleUp_counted
    (h : Exec (scalerRun c.snapshot config c.before c.clock false) c.trace c.after) :
    c.evaluated config = none ∧ ¬ c.ScaleUp ∧
        c.after.scale_up_cycles ≤ c.before.scale_up_cycles ∨
      ∃ triggers, c.evaluated config = some triggers ∧
        c.after.scale_up_cycles ≤ scaleUpCount config c.before.scale_up_cycles triggers ∧
        (c.ScaleUp → triggers.fired = true ∧ config.scale_up_hysteresis_cycles ≤
          scaleUpCount config c.before.scale_up_cycles triggers) ∧
        (triggers.hard = true → c.Unblocked config → c.after.scale_up_cycles = 0) := by
  rcases exec_scalerRun_cases h with ⟨-, ht, hafter⟩ | ⟨-, t₁, scaled, t₂, ht, h₁, h₂⟩
  · refine .inl ⟨by rw [ScalerCycle.evaluated, ht]; rfl, fun ⟨n, r, hmem⟩ => ?_, ?_⟩
    · rw [ht] at hmem
      cases hmem
    · rw [hafter]
      exact Nat.zero_le _
  · obtain ⟨hdrain, -, hcycles⟩ := scaleUp_kept_of_drain h₂
    have hfilter : c.trace.filter (·.op.setsCapacity) = t₁.filter (·.op.setsCapacity) := by
      rw [ht, List.filter_append, hdrain, List.append_nil]
    cases hgroup : c.snapshot.asg_group with
    | none =>
      obtain ⟨rfl, rfl⟩ := exec_evaluateScaleUp_of_none hgroup h₁
      refine .inl ⟨?_, fun ⟨n, r, hmem⟩ => ?_, hcycles.le⟩
      · rw [ScalerCycle.evaluated, ht]
        rcases exec_evaluateDrain h₂ with ⟨-, rfl, -⟩ | ⟨b, r, -, rfl, -⟩ <;> rfl
      · cases setDesired_mem_filter hfilter hmem
    | some group =>
      obtain ⟨reading, hcase⟩ := exec_evaluateScaleUp hgroup h₁
      have hcount : (scaleUpCounted c.active config c.before c.clock reading).scale_up_cycles =
          scaleUpCount config c.before.scale_up_cycles
            (scaleTriggers c.active config c.before c.clock reading) := by
        obtain ⟨prev, smoothed, raw, heq⟩ :=
          c.before.afterReading_eq (ifaceReading c.clock.net_dev reading)
        show scaleUpCount config (c.before.afterReading _).scale_up_cycles _ = _
        rw [heq]
      refine .inr ⟨scaleTriggers c.active config c.before c.clock reading, ?_, ?_⟩
      · rw [ScalerCycle.evaluated, ht]
        rcases hcase with ⟨-, rfl, -⟩ | ⟨-, r, rfl, -⟩ <;> rfl
      · rw [hcycles]
        rcases hcase with ⟨hnot, rfl, rfl⟩ | ⟨hdue, r, rfl, rfl⟩
        · refine ⟨hcount.le, fun ⟨n, r, hmem⟩ => ?_, fun hhard hfree => absurd ?_ hnot⟩
          · cases setDesired_mem_filter hfilter hmem
          · refine ⟨(Bool.or_eq_true _ _).mpr (.inl hhard), ?_, hfree.belowMax group hgroup, ?_⟩
            · apply le_of_eq
              exact (hcount.trans (by rw [scaleUpCount, if_pos hhard])).symm
            · rw [(scaleUpCounted_eq _ _ _ _ _).1]
              exact hfree.cooldown
        · refine ⟨?_, fun _ => ⟨hdue.fired, hcount ▸ hdue.allowed.hysteresis⟩, fun _ hfree => ?_⟩
          · split
            · exact Nat.zero_le _
            · exact hcount.le
          · cases r with
            | ok a => rfl
            | error e => exact absurd (by simp [ht]) (hfree.accepted group.raised e)

omit [Scalar F] in
theorem scaleUpCount_le (config : ScaleConfig F) (count : ℕ) {triggers : Triggers}
    (hhard : triggers.hard = false) :
    scaleUpCount config count triggers ≤ if triggers.soft then count + 1 else 0 := by
  rw [scaleUpCount, hhard, Triggers.soft]
  cases triggers.slope || triggers.bw with
  | true => exact Nat.mod_le _ _
  | false => exact Nat.le_refl _

/-- A cycle keeps that the counter stands for confirmations, and scales up without the hard trigger
only when these fill the window. -/
theorem vouched_scaleUp_step
    (h : Exec (scalerRun c.snapshot config c.before c.clock false) c.trace c.after)
    (hvouched : Vouched (config.scale_up_hysteresis_cycles - 1) c.before.scale_up_cycles
      Triggers.soft (cycles.filterMap (ScalerCycle.evaluated config)))
    (hhard : c.Hard config → c.Unblocked config ∨
      config.scale_up_hysteresis_cycles - 1 ≤ confirmations config (c :: cycles)) :
    Vouched (config.scale_up_hysteresis_cycles - 1) c.after.scale_up_cycles Triggers.soft
        ((c :: cycles).filterMap (ScalerCycle.evaluated config)) ∧
      (c.ScaleUp → ¬ c.Hard config →
        config.scale_up_hysteresis_cycles ≤ confirmations config (c :: cycles)) := by
  unfold confirmations at *
  rcases scaleUp_counted h with ⟨hnone, hnot, hle⟩ | ⟨triggers, hsome, hle, hup, hreset⟩
  · rw [List.filterMap_cons_none hnone]
    exact ⟨hvouched.mono hle, fun hup => absurd hup hnot⟩
  · rw [List.filterMap_cons_some hsome] at hhard ⊢
    cases hfired : triggers.hard with
    | true =>
      refine ⟨?_, fun _ hnot => absurd ⟨triggers, hsome, hfired⟩ hnot⟩
      rcases hhard ⟨triggers, hsome, hfired⟩ with hfree | hconfirmed
      · rw [hreset hfired hfree]
        exact vouched_zero
      · exact vouched_of_le hconfirmed
    | false =>
      have hcount := scaleUpCount_le config c.before.scale_up_cycles hfired
      cases hsoft : triggers.soft with
      | true =>
        rw [hsoft, if_pos rfl] at hcount
        refine ⟨hvouched.cons hsoft (hle.trans hcount), fun hscaled _ => ?_⟩
        exact hvouched.window hsoft ((hup hscaled).2.trans hcount)
      | false =>
        rw [hsoft, if_neg Bool.false_ne_true] at hcount
        refine ⟨vouched_zero.mono (hle.trans hcount), fun hscaled _ => ?_⟩
        have hnone : triggers.fired = false := by
          rw [Triggers.fired, hfired]
          exact hsoft
        exact absurd (hup hscaled).1 (by simp [hnone])

/-- In a run the counter stands for confirmations, up to the window but one. -/
theorem vouched_scaleUp (run : ScalerCycles config false cycles state)
    (hhard : HardScalesUp config cycles) :
    Vouched (config.scale_up_hysteresis_cycles - 1) state.scale_up_cycles Triggers.soft
        (cycles.filterMap (ScalerCycle.evaluated config)) ∧
      ScaleUpsConfirmed config cycles := by
  induction run with
  | start => exact ⟨vouched_zero, fun c older hsuffix => by simp at hsuffix⟩
  | @cycle cycles c _ hexec ih =>
    obtain ⟨hhard₁, hhard₂⟩ := forall_suffix_cons.mp hhard
    obtain ⟨hvouched, hconfirmed⟩ := ih hhard₂
    have hnew := vouched_scaleUp_step hexec hvouched hhard₁
    exact ⟨hnew.1, forall_suffix_cons.mpr ⟨hnew.2, hconfirmed⟩⟩

theorem ScalerCycles.exec (run : ScalerCycles config dry_run cycles state) (hc : c ∈ cycles) :
    Exec (scalerRun c.snapshot config c.before c.clock dry_run) c.trace c.after := by
  induction run with
  | start => cases hc
  | cycle _ hexec ih =>
    rcases List.mem_cons.mp hc with rfl | hc
    · exact hexec
    · exact ih hc

/-- A dry run neither scales up nor drains. -/
theorem not_dry_of_acts
    (h : Exec (scalerRun c.snapshot config c.before c.clock dry_run) c.trace c.after)
    (hacts : c.ScaleUp ∨ c.Drain) : dry_run = false := by
  cases dry_run with
  | false => rfl
  | true =>
    rcases hacts with ⟨n, r, hmem⟩ | ⟨name, r, hmem⟩
    · cases scalerRun_dry.exec h _ hmem
    · cases scalerRun_dry.exec h _ hmem

/-- When the hard trigger is never blocked before its window is confirmed, every scale-up without it
is confirmed. -/
theorem scaleUps_confirmed (run : ScalerCycles config dry_run cycles state)
    (hhard : HardScalesUp config cycles) : ScaleUpsConfirmed config cycles := by
  intro c older hsuffix hup
  obtain rfl := not_dry_of_acts (run.exec (hsuffix.subset List.mem_cons_self)) (.inl hup)
  exact (vouched_scaleUp run hhard).2 c older hsuffix hup

end ScaleUp

section Drain

/-- `evaluate_drain` returns before it looks at the gate and keeps the counter: no group is known,
or the limit of draining backends is reached where the counter is not reset. -/
def DrainSkipped (snapshot : SystemSnapshot) (active : List BackendStatus)
    (config : ScaleConfig F) : Prop :=
  ∀ group, snapshot.asg_group = some group → 1 < countU32 active ∧
    group.min_size < group.desired_capacity ∧
      config.max_concurrent_draining ≤ snapshot.drainingCount

namespace ScalerCycle

variable (config : ScaleConfig F) (c : ScalerCycle F)

/-- The average of the sessions over the active backends is below the threshold. -/
def gateOpen : Bool :=
  countU32 c.active ≠ 0 && totalSessions c.active / countU32 c.active < config.drain_threshold

end ScalerCycle

theorem gateOpen_of_lt {config : ScaleConfig F} {c : ScalerCycle F}
    (hactive : countU32 c.active ≠ 0)
    (hgate : totalSessions c.active / countU32 c.active < config.drain_threshold) :
    c.gateOpen config = true :=
  Bool.and_eq_true_iff.mpr ⟨decide_eq_true hactive, decide_eq_true hgate⟩

/-- In the whole window that ends with a drain the gate is open. -/
def DrainsConfirmed (config : ScaleConfig F) (cycles : List (ScalerCycle F)) : Prop :=
  ∀ c older, c :: older <:+ cycles → c.Drain →
    config.drain_hysteresis_cycles ≤ streak (ScalerCycle.gateOpen config) (c :: older)

/-- When the counter matters and a cycle keeps it without a look at the gate, the gate is open. -/
def SkipsOpen (config : ScaleConfig F) (cycles : List (ScalerCycle F)) : Prop :=
  ∀ c ∈ cycles, 1 < config.drain_hysteresis_cycles → 0 < c.before.drain_cycles →
    countU32 c.active ≠ 0 → DrainSkipped c.snapshot c.active config → c.gateOpen config = true

variable {config : ScaleConfig F} {c : ScalerCycle F} {cycles : List (ScalerCycle F)}
  {state : ScalerState F} {dry_run : Bool}

/-- What the decision on a drain does with its counter: it keeps it, counts an open gate, or
resets it. -/
theorem drainDecision_counted (snapshot : SystemSnapshot) (active : List BackendStatus)
    (config : ScaleConfig F) (state : ScalerState F) (clock : ScalerClock) :
    DrainSkipped snapshot active config ∧
        drainDecision snapshot active config state clock = (state, none) ∨
      totalSessions active / countU32 active < config.drain_threshold ∧
        (drainDecision snapshot active config state clock).1.drain_cycles ≤
          state.drain_cycles + 1 ∧
        ((drainDecision snapshot active config state clock).2.isSome →
          config.drain_hysteresis_cycles ≤ state.drain_cycles + 1) ∨
      (drainDecision snapshot active config state clock).2 = none ∧
        (drainDecision snapshot active config state clock).1.drain_cycles = 0 := by
  have hmod : (state.drain_cycles + 1) % 2 ^ 32 ≤ state.drain_cycles + 1 := Nat.mod_le _ _
  unfold drainDecision
  cases hgroup : snapshot.asg_group with
  | none => exact .inl ⟨fun group h => (by rw [hgroup] at h; cases h), rfl⟩
  | some group =>
    dsimp only
    split_ifs with h₁ h₂ h₃ h₄ h₅ h₆
    · exact .inr (.inr ⟨rfl, rfl⟩)
    · exact .inr (.inr ⟨rfl, rfl⟩)
    · refine .inl ⟨fun group' h => ?_, rfl⟩
      obtain rfl := Option.some.inj (hgroup.symm.trans h)
      omega
    · exact .inr (.inr ⟨rfl, rfl⟩)
    · exact .inr (.inl ⟨by omega, hmod, fun h => by cases h⟩)
    · exact .inr (.inl ⟨by omega, hmod, fun h => by cases h⟩)
    · exact .inr (.inl ⟨by omega, hmod, fun _ => by omega⟩)

variable [Scalar F]

/-- What a cycle does with the drain counter. -/
theorem drain_counted
    (h : Exec (scalerRun c.snapshot config c.before c.clock false) c.trace c.after) :
    (countU32 c.active ≠ 0 ∧ DrainSkipped c.snapshot c.active config) ∧ ¬ c.Drain ∧
        c.after.drain_cycles = c.before.drain_cycles ∨
      c.gateOpen config = true ∧ c.after.drain_cycles ≤ c.before.drain_cycles + 1 ∧
        (c.Drain → config.drain_hysteresis_cycles ≤ c.before.drain_cycles + 1) ∨
      ¬ c.Drain ∧ c.after.drain_cycles = 0 := by
  rcases exec_scalerRun_cases h with ⟨-, ht, hafter⟩ | ⟨hactive, t₁, scaled, t₂, ht, h₁, h₂⟩
  · refine .inr (.inr ⟨fun ⟨name, r, hmem⟩ => ?_, by rw [hafter]; rfl⟩)
    rw [ht] at hmem
    cases hmem
  · obtain ⟨hcycles, -⟩ := drain_kept_of_scaleUp h₁
    have hfilter : c.trace.filter (·.op.writesFile) = t₂.filter (·.op.writesFile) := by
      rw [ht, List.filter_append, scaleUp_writes_nothing h₁, List.nil_append]
    have hnone : t₂ = [] → ¬ c.Drain := by
      rintro rfl ⟨name, r, hmem⟩
      cases writeFile_mem_filter hfilter hmem
    have hcases := drainDecision_counted c.snapshot c.active config scaled c.clock
    rw [hcycles] at hcases
    rcases exec_evaluateDrain h₂ with ⟨hno, hnil, hafter⟩ | ⟨b, r, hsome, -, hafter⟩
    · rw [hafter]
      rcases hcases with ⟨hskip, heq⟩ | ⟨hgate, hle, -⟩ | ⟨-, hzero⟩
      · refine .inl ⟨⟨hactive, hskip⟩, hnone hnil, ?_⟩
        exact (congrArg (fun d => d.1.drain_cycles) heq).trans hcycles
      · exact .inr (.inl ⟨gateOpen_of_lt hactive hgate, hle,
          fun hdrain => absurd hdrain (hnone hnil)⟩)
      · exact .inr (.inr ⟨hnone hnil, hzero⟩)
    · rcases hcases with ⟨-, heq⟩ | ⟨hgate, hle, hdue⟩ | ⟨hno, -⟩
      · cases hsome.symm.trans (congrArg Prod.snd heq)
      · refine .inr (.inl ⟨gateOpen_of_lt hactive hgate, ?_,
          fun _ => hdue (Option.isSome_iff_exists.mpr ⟨b, hsome⟩)⟩)
        rw [hafter]
        split
        · exact Nat.zero_le _
        · exact hle
      · cases hsome.symm.trans hno

/-- A cycle keeps that the counter stands for cycles in a row with an open gate, and drains only
when these fill the window. -/
theorem vouched_drain_step
    (h : Exec (scalerRun c.snapshot config c.before c.clock false) c.trace c.after)
    (hvouched : Vouched (config.drain_hysteresis_cycles - 1) c.before.drain_cycles
      (ScalerCycle.gateOpen config) cycles)
    (hskip : 1 < config.drain_hysteresis_cycles → 0 < c.before.drain_cycles →
      countU32 c.active ≠ 0 → DrainSkipped c.snapshot c.active config →
        c.gateOpen config = true) :
    Vouched (config.drain_hysteresis_cycles - 1) c.after.drain_cycles
        (ScalerCycle.gateOpen config) (c :: cycles) ∧
      (c.Drain → config.drain_hysteresis_cycles ≤
        streak (ScalerCycle.gateOpen config) (c :: cycles)) := by
  rcases drain_counted h with ⟨hskipped, hnot, heq⟩ | ⟨hopen, hle, hdue⟩ | ⟨hnot, heq⟩
  · refine ⟨?_, fun hdrain => absurd hdrain hnot⟩
    rw [heq]
    by_cases hcounts : 1 < config.drain_hysteresis_cycles ∧ 0 < c.before.drain_cycles
    · have hopen := hskip hcounts.1 hcounts.2 hskipped.1 hskipped.2
      exact hvouched.cons hopen (Nat.le_succ _)
    · unfold Vouched
      omega
  · exact ⟨hvouched.cons hopen hle, fun hdrain => hvouched.window hopen (hdue hdrain)⟩
  · rw [heq]
    exact ⟨vouched_zero, fun hdrain => absurd hdrain hnot⟩

/-- In a run the counter stands for cycles in a row with an open gate, up to the window but one. -/
theorem vouched_drain (run : ScalerCycles config false cycles state)
    (hskips : SkipsOpen config cycles) :
    Vouched (config.drain_hysteresis_cycles - 1) state.drain_cycles (ScalerCycle.gateOpen config)
        cycles ∧
      DrainsConfirmed config cycles := by
  induction run with
  | start => exact ⟨vouched_zero, fun c older hsuffix => by simp at hsuffix⟩
  | @cycle cycles c _ hexec ih =>
    obtain ⟨hvouched, hconfirmed⟩ := ih fun c' hc' => hskips c' (List.mem_cons_of_mem _ hc')
    have hnew := vouched_drain_step hexec hvouched (hskips c List.mem_cons_self)
    exact ⟨hnew.1, forall_suffix_cons.mpr ⟨hnew.2, hconfirmed⟩⟩

/-- When the gate is open in the cycles that keep the counter without a look at it, every drain is
confirmed. -/
theorem drains_confirmed (run : ScalerCycles config dry_run cycles state)
    (hskips : SkipsOpen config cycles) : DrainsConfirmed config cycles := by
  intro c older hsuffix hdrain
  obtain rfl := not_dry_of_acts (run.exec (hsuffix.subset List.mem_cons_self)) (.inr hdrain)
  exact (vouched_drain run hskips).2 c older hsuffix hdrain

end Drain

section Examples

/-- What the environment gives to a cycle. -/
structure ScalerInput where
  snapshot : SystemSnapshot
  clock : ScalerClock
  reply : (e : Eff) → e.Reply

variable [Scalar F] (config : ScaleConfig F)

/-- The state after a run. -/
def lastState (cycles : List (ScalerCycle F)) : ScalerState F :=
  (cycles.head?.map ScalerCycle.after).getD .default

/-- The run on the inputs, of which the newest comes first. -/
def runOn : List ScalerInput → List (ScalerCycle F)
  | [] => []
  | input :: inputs =>
    let cycles := runOn inputs
    let before := lastState cycles
    let result := answering input.reply (scalerRun input.snapshot config before input.clock false)
    ⟨input.snapshot, input.clock, before, result.1, result.2⟩ :: cycles

theorem runOn_cycles (inputs : List ScalerInput) :
    ScalerCycles config false (runOn config inputs) (lastState (runOn config inputs)) := by
  induction inputs with
  | nil => exact .start
  | cons input inputs ih => exact .cycle (c := ⟨_, _, _, _, _⟩) ih (exec_answering _ _)

/-- The replies in a cycle are those of its input. -/
theorem reply_of_mem_runOn {inputs : List ScalerInput} {c : ScalerCycle F}
    (hc : c ∈ runOn config inputs) :
    ∃ input ∈ inputs, ∀ ev ∈ c.trace, ev.reply = input.reply ev.op := by
  induction inputs with
  | nil => cases hc
  | cons input inputs ih =>
    rcases List.mem_cons.mp hc with rfl | hc
    · exact ⟨input, List.mem_cons_self, mem_answering⟩
    · obtain ⟨input', hmem, hreply⟩ := ih hc
      exact ⟨input', List.mem_cons_of_mem _ hmem, hreply⟩

/-- One active backend with this many connections, in a group of at most four. -/
def busySnapshot (connections : ℕ) (desired : ℤ) : SystemSnapshot where
  backends := [⟨167772180, some 0, .active, some ⟨167772180, connections, 0⟩,
    some ⟨0, "i-a", 10 ^ 6⟩⟩]
  leases := [⟨0, "i-a", 10 ^ 6⟩]
  asg := [⟨"i-a", "InService", "Healthy"⟩]
  asg_group := some ⟨"pool", desired, 1, 4⟩
  ipvs := [⟨167772180, connections, 0⟩]

/-- A clock that shows the given second. -/
def clockAt (second : ℕ) : ScalerClock :=
  ⟨fun _ => second * 1000, second * 10 ^ 9, second * 10 ^ 9, second * 10 ^ 9, second * 10 ^ 9,
    second * 10 ^ 9, second * 10 ^ 9⟩

/-- The interface has received ten gigabytes each second, and every request succeeds. -/
def busyReply (second : ℕ) : (e : Eff) → e.Reply
  | .readNetDev => .ok s!"eth0: {second * 10 ^ 10} 0"
  | e => okReply e

def busyInput (second connections : ℕ) (desired : ℤ) : ScalerInput :=
  ⟨busySnapshot connections desired, clockAt second, busyReply second⟩

/-- The hard trigger scales up in the first cycle.  When the cooldown is over, the bandwidth trigger
fires in three cycles. -/
def confirmedRun : List (ScalerCycle ℚ) :=
  runOn defaultConfig
    [busyInput 16 1200 3, busyInput 15 1200 3, busyInput 14 1200 3, busyInput 1 2400 2]

/-- The hard trigger fires at the maximum of the group, and one cycle later, with room in the group,
the bandwidth trigger. -/
def blockedRun : List (ScalerCycle ℚ) :=
  runOn defaultConfig [busyInput 2 1200 3, busyInput 1 2400 4]

/-- Two active backends with these numbers of connections. -/
def pairSnapshot (a b : ℕ) (asg_group : Option AsgGroupInfo) : SystemSnapshot where
  backends := [
    ⟨167772180, some 0, .active, some ⟨167772180, a, 0⟩, some ⟨0, "i-a", 10 ^ 6⟩⟩,
    ⟨167772181, some 1, .active, some ⟨167772181, b, 0⟩, some ⟨1, "i-b", 10 ^ 6⟩⟩]
  leases := [⟨0, "i-a", 10 ^ 6⟩, ⟨1, "i-b", 10 ^ 6⟩]
  asg := [⟨"i-a", "InService", "Healthy"⟩, ⟨"i-b", "InService", "Healthy"⟩]
  asg_group := asg_group
  ipvs := [⟨167772180, a, 0⟩, ⟨167772181, b, 0⟩]

/-- A cycle of two backends, with the group or, when its query failed, without. -/
def pairInput (second connections : ℕ) (asg_group : Option AsgGroupInfo) : ScalerInput :=
  ⟨pairSnapshot connections connections asg_group, clockAt second, okReply⟩

/-- The gate is open in four cycles, in one of which the query of the group fails. -/
def openRun : List (ScalerCycle ℚ) :=
  let group := some ⟨"pool", 3, 1, 4⟩
  runOn defaultConfig [pairInput 4 0 group, pairInput 3 0 none, pairInput 2 0 group,
    pairInput 1 0 group]

/-- After two open cycles the gate closes, while the query of the group fails, and opens again. -/
def skippedRun : List (ScalerCycle ℚ) :=
  let group := some ⟨"pool", 3, 1, 4⟩
  runOn defaultConfig [pairInput 4 0 group, pairInput 3 1200 none, pairInput 2 0 group,
    pairInput 1 0 group]

theorem hard_iff {c : ScalerCycle F} :
    c.Hard config ↔ (c.evaluated config).any (·.hard) = true :=
  (Option.any_eq_true _ _).symm

instance decidableHard (c : ScalerCycle F) : Decidable (c.Hard config) :=
  decidable_of_iff _ (hard_iff config).symm

/-- The hard trigger is not blocked when it fires, and the scale-up without it is confirmed. -/
theorem scaleUps_confirmed_bandwidth : (∃ c ∈ confirmedRun.getLast?, c.Hard defaultConfig) ∧
    (∃ c ∈ confirmedRun.head?, c.ScaleUp ∧ ¬ c.Hard defaultConfig) ∧
    ScaleUpsConfirmed defaultConfig confirmedRun := by
  refine ⟨⟨_, rfl, by decide +kernel⟩, ⟨_, rfl,
    ⟨4, .ok (), mem_answering_of_op (by decide +kernel)⟩, by decide +kernel⟩, ?_⟩
  refine scaleUps_confirmed (runOn_cycles _ _) fun c older hsuffix hhard => .inl ?_
  have hc : c ∈ confirmedRun := hsuffix.subset List.mem_cons_self
  have hfirst : ∀ c ∈ confirmedRun, c.Hard defaultConfig → c.before.last_scale_up = none ∧
      ∀ group ∈ c.snapshot.asg_group, group.desired_capacity < group.max_size := by decide +kernel
  obtain ⟨hlast, hroom⟩ := hfirst c hc hhard
  obtain ⟨input, hinput, hreply⟩ := reply_of_mem_runOn _ hc
  refine ⟨hroom, fun last h => ?_, fun n e hmem => ?_⟩
  · rw [hlast] at h
    cases h
  · have hbusy : ∃ second connections desired, input = busyInput second connections desired := by
      simp only [List.mem_cons, List.not_mem_nil, or_false] at hinput
      rcases hinput with rfl | rfl | rfl | rfl <;> exact ⟨_, _, _, rfl⟩
    obtain ⟨second, connections, desired, rfl⟩ := hbusy
    cases hreply _ hmem

/-- One confirmation scales up after a blocked cycle of the hard trigger. -/
theorem scaleUp_unconfirmed : ¬ ∀ (config : ScaleConfig ℚ) cycles state,
    1 ≤ config.scale_up_hysteresis_cycles → ScalerCycles config false cycles state →
      ScaleUpsConfirmed config cycles := by
  intro h
  have hle := h defaultConfig blockedRun _ (by decide) (runOn_cycles _ _) _ _ (List.suffix_refl _)
    ⟨4, .ok (), mem_answering_of_op (by decide +kernel)⟩ (by decide +kernel)
  exact absurd hle (by decide +kernel)

/-- A cycle that knows no group keeps the counter, and the drain of the run is confirmed. -/
theorem drains_confirmed_open : (∃ c ∈ openRun, 0 < c.before.drain_cycles ∧
      DrainSkipped c.snapshot c.active defaultConfig) ∧
    (∃ c ∈ openRun.head?, c.Drain) ∧ DrainsConfirmed defaultConfig openRun := by
  refine ⟨⟨_, .tail _ (.head _), by decide +kernel, fun group h => by cases h⟩,
    ⟨_, rfl, weightFile 167772180, .ok (), mem_answering_of_op (by decide +kernel)⟩, ?_⟩
  refine drains_confirmed (runOn_cycles _ _) fun c hc _ _ _ _ => ?_
  have hall : openRun.all (ScalerCycle.gateOpen defaultConfig) = true := by decide +kernel
  exact List.all_eq_true.mp hall c hc

/-- A drain begins one cycle after the gate was closed. -/
theorem drain_unconfirmed : ¬ ∀ (config : ScaleConfig ℚ) cycles state,
    1 ≤ config.drain_hysteresis_cycles → ScalerCycles config false cycles state →
      DrainsConfirmed config cycles := by
  intro h
  have hle := h defaultConfig skippedRun _ (by decide) (runOn_cycles _ _) _ _ (List.suffix_refl _)
    ⟨weightFile 167772180, .ok (), mem_answering_of_op (by decide +kernel)⟩
  exact absurd hle (by decide +kernel)

end Examples

end Aerosuite.Scale
