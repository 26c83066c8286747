import Aerosuite.Scale.Snapshot

/-! The scaler of `aeroscale`: the triggers that raise the desired capacity, and the drain of one
backend.  Its `f64` arithmetic is any type with the operations of `Scalar`, and an `Instant` is a
number of nanoseconds. -/

namespace Aerosuite.Scale

open Program

/-- The operations of `f64` that the scaler uses: the conversion of an unsigned integer, the
arithmetic, the comparisons, and the truncation to a `u64`. -/
class Scalar (F : Type) extends Add F, Sub F, Mul F, Div F, LT F, LE F where
  ofNat : ℕ → F
  truncU64 : F → ℕ
  decLT : DecidableLT F
  decLE : DecidableLE F

instance Scalar.decidableLT {F : Type} [Scalar F] : DecidableLT F := Scalar.decLT

instance Scalar.decidableLE {F : Type} [Scalar F] : DecidableLE F := Scalar.decLE

/-- Exact arithmetic. -/
instance : Scalar ℚ where
  ofNat n := n
  truncU64 q := min q.floor.toNat (2 ^ 64 - 1)
  decLT := inferInstance
  decLE := inferInstance

structure ScaleConfig (F : Type) where
  hard_conn_threshold : ℕ
  slope_low_floor : ℕ
  slope_threshold_conn_per_min : F
  bw_threshold_bps_per_backend : ℕ
  drain_threshold : ℕ
  scale_up_hysteresis_cycles : ℕ
  drain_hysteresis_cycles : ℕ
  scale_up_cooldown_secs : ℕ
  drain_cooldown_secs : ℕ
  max_concurrent_draining : ℕ

structure IfaceSnapshot where
  rx_bytes : ℕ
  at_ns : ℕ

/-- The default thresholds. -/
def defaultConfig : ScaleConfig ℚ := ⟨1200, 500, 250, 200000000, 500, 3, 3, 12, 30, 2⟩

/-- What the scaler keeps across cycles.  The oldest slope sample comes first. -/
structure ScalerState (F : Type) where
  scale_up_cycles : ℕ
  drain_cycles : ℕ
  drain_candidate : Option Ipv4Addr
  last_scale_up : Option ℕ
  last_drain : Option ℕ
  slope_samples : List (ℕ × ℕ)
  bw_prev : Option IfaceSnapshot
  bw_smoothed : F
  bw_raw_bps : ℕ

/-- `ScalerState::default`. -/
def ScalerState.default {F : Type} [Scalar F] : ScalerState F :=
  ⟨0, 0, none, none, none, [], none, Scalar.ofNat 0, 0⟩

/-- The clocks of a scaler pass: the wall clock in milliseconds when the lease of a slot is looked
at, and the monotonic clock in nanoseconds at the points where the pass reads it. -/
structure ScalerClock where
  lease : ℕ → ℕ
  scale_up : ℕ
  net_dev : ℕ
  scale_up_check : ℕ
  scale_up_done : ℕ
  drain_check : ℕ
  drain_done : ℕ

/-- `sessions_from_ipvs`. -/
def sessionsFromIpvs (connections : ℕ) : ℕ := connections / 2

/-- The sessions of a backend that has IPVS data. -/
def BackendStatus.sessions (b : BackendStatus) : ℕ :=
  sessionsFromIpvs ((b.ipvs.map IpvsBackend.active_connections).getD 0)

/-- The backends that participate in scale decisions. -/
def SystemSnapshot.activeBackends (snapshot : SystemSnapshot) (clock : ScalerClock) :
    List BackendStatus :=
  snapshot.backends.filter fun b => b.weight_state = .active ∧
    ((b.lease.map fun l => !l.isExpired (clock.lease l.slot)).getD false) ∧ b.ipvs.isSome

/-- The sum of the sessions, as a `u32`. -/
def totalSessions (active : List BackendStatus) : ℕ :=
    (active.map BackendStatus.sessions).sum % 2 ^ 32

/-- `len() as u32`. -/
def countU32 (bs : List BackendStatus) : ℕ := bs.length % 2 ^ 32

section Drain

variable {F : Type} (snapshot : SystemSnapshot) (active : List BackendStatus)
  (config : ScaleConfig F) (state : ScalerState F) (clock : ScalerClock)

def SystemSnapshot.drainingCount : ℕ :=
  countU32 (snapshot.backends.filter fun b => b.weight_state = .draining)

/-- The backends in the order of their sessions; those with equal sessions keep their order. -/
def bySessions : List BackendStatus := active.insertionSort fun a b => a.sessions ≤ b.sessions

/-- The backend that `evaluate_drain` selects: the one with the fewest sessions if it has none, and
else the one with the most, if nothing drains. -/
def drainCandidate : Option BackendStatus :=
  match (bySessions active).head? with
  | none => none
  | some least =>
    if least.sessions = 0 then some least
    else if snapshot.drainingCount = 0 then (bySessions active).getLast?
    else none

/-- What `evaluate_drain` decides before it writes: the state of the scaler and the backend to
drain. -/
def drainDecision : ScalerState F × Option BackendStatus :=
  match snapshot.asg_group with
  | none => (state, none)
  | some group =>
    let active_count := countU32 active
    if active_count ≤ 1 then ({ state with drain_cycles := 0, drain_candidate := none }, none)
    else if group.desired_capacity ≤ group.min_size then
      ({ state with drain_cycles := 0, drain_candidate := none }, none)
    else if config.max_concurrent_draining ≤ snapshot.drainingCount then (state, none)
    else if config.drain_threshold ≤ totalSessions active / active_count then
      ({ state with drain_cycles := 0 }, none)
    else
      let drain_cycles := (state.drain_cycles + 1) % 2 ^ 32
      let state := { state with drain_cycles }
      if drain_cycles < config.drain_hysteresis_cycles then (state, none)
      else if state.last_drain.any fun last =>
          (clock.drain_check - last) / 10 ^ 9 < config.drain_cooldown_secs then (state, none)
      else (state, drainCandidate snapshot active)

/-- `evaluate_drain`. -/
def evaluateDrain (dry_run : Bool) : Daemon (ScalerState F) :=
  let (state, candidate) := drainDecision snapshot active config state clock
  match candidate with
  | none => pure state
  | some b => do
    let drained : ScalerState F :=
      { state with drain_cycles := 0, drain_candidate := none, last_drain := some clock.drain_done }
    match ← writeWeight b.ip WEIGHT_DRAINING dry_run with
    | .ok () => pure drained
    | .error _ => pure state

end Drain

section ScaleUp

variable {F : Type} [Scalar F]

/-- `as_secs_f64` of a duration. -/
def secsF64 (ns : ℕ) : F :=
  Scalar.ofNat (ns / 10 ^ 9) + Scalar.ofNat (ns % 10 ^ 9) / Scalar.ofNat (10 ^ 9)

/-- A tenth of a second. -/
def tenth : F := Scalar.ofNat 1 / Scalar.ofNat 10

/-- The slope that one lag contributes, if its sample is old enough. -/
def lagSlope (now_sessions now : ℕ) (sample : ℕ × ℕ) : Option F :=
  let (t_past, sessions_past) := sample
  if now < t_past then none
  else
    let dt_secs : F := secsF64 (now - t_past)
    if dt_secs < tenth then none
    else some ((Scalar.ofNat now_sessions - Scalar.ofNat sessions_past) / dt_secs * Scalar.ofNat 60)

/-- `compute_smoothed_slope`: the mean over the samples of up to six lags. -/
def computeSmoothedSlope (samples : List (ℕ × ℕ)) (now_sessions now : ℕ) : Option F :=
  let lags := samples.reverse.take 6
  let (total, count) := lags.foldl (fun acc sample =>
    match lagSlope now_sessions now sample with
    | none => acc
    | some slope => (acc.1 + slope, acc.2 + 1)) ((Scalar.ofNat 0 : F), 0)
  if count = 0 then none else some (total / Scalar.ofNat count)

def BW_IFACE : String := "eth0"

def BW_EMA_ALPHA : F := Scalar.ofNat 6 / Scalar.ofNat 10

/-- What follows the name of the interface and a colon on a line. -/
def ifaceRest (iface : List Char) (line : List Char) : Option (List Char) :=
  (Text.stripPrefix iface (Text.trimStart line)).bind (Text.stripPrefix [':'])

/-- `parse_iface_rx_bytes`. -/
def parseIfaceRxBytes (content iface : String) : Option ℕ :=
  ((Text.lines content.toList).findSome? (ifaceRest iface.toList)).bind fun rest =>
    (Text.splitWhitespace rest).head?.bind Text.parseU64

/-- `read_iface_snapshot`, where `at_ns` is the time after the file was read. -/
def readIfaceSnapshot (at_ns : ℕ) : Daemon (Except String IfaceSnapshot) :=
  andThen (context "failed to read /proc/net/dev" (eff .readNetDev)) fun content =>
    match parseIfaceRxBytes content BW_IFACE with
    | some rx_bytes => pure (.ok ⟨rx_bytes, at_ns⟩)
    | none => pure (.error s!"interface '{BW_IFACE}' not found in /proc/net/dev")

/-- The bandwidth that the scaler keeps, after a reading of the interface. -/
def ScalerState.observeBandwidth (state : ScalerState F) (current : IfaceSnapshot) :
    ScalerState F :=
  let state' := { state with bw_prev := some current }
  match state.bw_prev with
  | none => state'
  | some prev =>
    if current.at_ns < prev.at_ns then state'
    else
      let dt_secs : F := secsF64 (current.at_ns - prev.at_ns)
      if tenth < dt_secs ∧ prev.rx_bytes ≤ current.rx_bytes then
        let raw_bps := Scalar.ofNat (current.rx_bytes - prev.rx_bytes) / dt_secs
        { state' with
          bw_raw_bps := Scalar.truncU64 raw_bps
          bw_smoothed := BW_EMA_ALPHA * raw_bps +
            (Scalar.ofNat 1 - BW_EMA_ALPHA) * state.bw_smoothed }
      else state'

/-- A failed reading changes nothing. -/
def ScalerState.afterReading (state : ScalerState F) : Except String IfaceSnapshot → ScalerState F
  | .ok current => state.observeBandwidth current
  | .error _ => state

/-- The window of slope samples after the sample of this cycle. -/
def pushSample (samples : List (ℕ × ℕ)) (sample : ℕ × ℕ) : List (ℕ × ℕ) :=
  let samples := samples ++ [sample]
  if 7 < samples.length then samples.tail else samples

/-- The bandwidth of one backend in bytes per second, once there is one. -/
def ScalerState.bwPerBackend (state : ScalerState F) (active_count : ℕ) : Option ℕ :=
  if 0 < active_count ∧ Scalar.ofNat 0 < state.bw_smoothed then
    some (Scalar.truncU64 state.bw_smoothed / active_count)
  else none

/-- The three triggers. -/
structure Triggers where
  hard : Bool
  slope : Bool
  bw : Bool

def triggers (config : ScaleConfig F) (state : ScalerState F) (slope : Option F)
    (avg_sessions active_count : ℕ) : Triggers where
  hard := config.hard_conn_threshold ≤ avg_sessions
  slope := config.slope_low_floor ≤ avg_sessions &&
    slope.any fun s => config.slope_threshold_conn_per_min ≤ s
  bw := (state.bwPerBackend active_count).any fun bw =>
    config.bw_threshold_bps_per_backend ≤ bw && config.slope_low_floor ≤ avg_sessions

/-- The guards and the action of `evaluate_scale_up`, once the counter is up to date. -/
def attemptScaleUp (group : AsgGroupInfo) (config : ScaleConfig F) (state : ScalerState F)
    (clock : ScalerClock) (dry_run : Bool) : Daemon (ScalerState F) :=
  if state.scale_up_cycles < config.scale_up_hysteresis_cycles then pure state
  else if group.max_size ≤ group.desired_capacity then pure state
  else if state.last_scale_up.any fun last =>
      (clock.scale_up_check - last) / 10 ^ 9 < config.scale_up_cooldown_secs then pure state
  else do
    let new_desired := ((group.desired_capacity + 1) % 2 ^ 32).toNat
    let scaled : ScalerState F :=
      { state with scale_up_cycles := 0, last_scale_up := some clock.scale_up_done }
    if dry_run then pure scaled
    else
      match ← eff (.setDesired new_desired) with
      | .ok () => pure scaled
      | .error _ => pure state

/-- `evaluate_scale_up`. -/
def evaluateScaleUp (snapshot : SystemSnapshot) (config : ScaleConfig F) (state : ScalerState F)
    (avg_sessions active_count : ℕ) (clock : ScalerClock) (dry_run : Bool) :
    Daemon (ScalerState F) :=
  match snapshot.asg_group with
  | none => pure state
  | some group => do
    let reading ← readIfaceSnapshot clock.net_dev
    let state := state.afterReading reading
    let slope := computeSmoothedSlope state.slope_samples avg_sessions clock.scale_up
    let state :=
      { state with slope_samples := pushSample state.slope_samples (clock.scale_up, avg_sessions) }
    let fired := triggers config state slope avg_sessions active_count
    if fired.hard then
      attemptScaleUp group config
        { state with scale_up_cycles := config.scale_up_hysteresis_cycles } clock dry_run
    else if fired.slope || fired.bw then
      attemptScaleUp group config
        { state with scale_up_cycles := (state.scale_up_cycles + 1) % 2 ^ 32 } clock dry_run
    else pure { state with scale_up_cycles := 0 }

/-- `scaler::run`, with the state after it. -/
def scalerRun (snapshot : SystemSnapshot) (config : ScaleConfig F) (state : ScalerState F)
    (clock : ScalerClock) (dry_run : Bool) : Daemon (ScalerState F) :=
  let active := snapshot.activeBackends clock
  let active_count := countU32 active
  if active_count = 0 then
    pure { state with scale_up_cycles := 0, drain_cycles := 0, drain_candidate := none }
  else do
    -- The average is rounded up.
    let avg_sessions := (totalSessions active + active_count - 1) % 2 ^ 32 / active_count
    let state ← evaluateScaleUp snapshot config state avg_sessions active_count clock dry_run
    evaluateDrain snapshot active config state clock dry_run

theorem evaluateScaleUp_always {snapshot : SystemSnapshot} {config : ScaleConfig F}
    {state : ScalerState F} {clock : ScalerClock} {avg_sessions active_count : ℕ} {dry_run : Bool} :
    (evaluateScaleUp snapshot config state avg_sessions active_count clock dry_run).Always fun e =>
      e = .readNetDev ∨ dry_run = false ∧ ∃ n, e = .setDesired n := by
  have hattempt : ∀ group state', (attemptScaleUp group config state' clock dry_run).Always fun e =>
      e = .readNetDev ∨ dry_run = false ∧ ∃ n, e = .setDesired n := by
    intro group state'
    unfold attemptScaleUp
    split_ifs with h₁ h₂ h₃ hdry
    · trivial
    · trivial
    · trivial
    · trivial
    · exact ⟨.inr ⟨by simpa using hdry, _, rfl⟩, fun r => by cases r <;> trivial⟩
  unfold evaluateScaleUp
  split
  · trivial
  · refine Always.bind ?_ fun reading => ?_
    · refine Always.andThen (Always.context ⟨.inl rfl, fun _ => trivial⟩) fun content => ?_
      split <;> trivial
    · dsimp only
      split_ifs
      · exact hattempt _ _
      · exact hattempt _ _
      · trivial

end ScaleUp

end Aerosuite.Scale
