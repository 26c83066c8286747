import Aerosuite.Scale.Cleanup
import Aerosuite.Scale.Scaler
import Aerosuite.Scale.WeightSync

/-! The tasks of `aeroscale`: the main task, which initialises the weight files and then runs one
refresh cycle after the other, and the listener on the channel `asg-change`.  A task runs for a
given number of rounds.  The refresh of the AWS credentials and the metrics are left out. -/

namespace Aerosuite.Scale

open Pool Program

/-- `vrrp::is_master`, for the output of `ip addr show`. -/
def holdsVip (vip_inside : Ipv4Addr) : Option String → Bool
  | some stdout => Text.contains stdout.toList vip_inside.display
  | none => false

structure DaemonConfig (F : Type) where
  net : SlotNetwork
  vip_inside : Option Ipv4Addr
  dry_run : Bool
  term_decrements_capacity : Bool
  orphan_grace_secs : ℕ
  weight_state_ttl : ℕ
  scale : ScaleConfig F

/-- What the main task keeps across cycles. -/
structure DaemonState (F : Type) where
  owner_cache : OwnerCache
  cleanup : CleanupState
  scaler : ScalerState F

/-- The clocks of a refresh cycle. -/
structure CycleClock where
  cleanup : PassClock
  persist : ℕ
  scaler : ScalerClock

/-- The clocks of the startup. -/
structure StartClock where
  init : ℕ
  lease : ℕ → ℕ

variable {F : Type}

/-- The role of the node in a cycle: master when the inside address is not known. -/
def readRole (vip_inside : Option Ipv4Addr) : Daemon Bool :=
  match vip_inside with
  | some vip => do
    let output ← eff .ipAddrShow
    pure (holdsVip vip output)
  | none => pure true

variable [Scalar F]

/-- A refresh cycle once the role is known.  Errors are logged, and the cycle goes on. -/
def cycleAs (cfg : DaemonConfig F) (is_master : Bool) (clock : CycleClock) (state : DaemonState F) :
    Daemon (DaemonState F) := do
  if ¬ is_master then
    let _ ← syncFromRedis
  match ← collect cfg.net state.owner_cache with
  | (.error _, owner_cache) => pure { state with owner_cache }
  | (.ok snapshot, owner_cache) =>
    let cleanup ← cleanupRun snapshot clock.cleanup cfg.dry_run is_master
      cfg.term_decrements_capacity state.cleanup cfg.orphan_grace_secs
    if is_master then
      let _ ← persist clock.persist
      let scaler ← scalerRun snapshot cfg.scale state.scaler clock.scaler cfg.dry_run
      pure ⟨owner_cache, cleanup, scaler⟩
    else pure ⟨owner_cache, cleanup, state.scaler⟩

/-- The refresh loop, one cycle for each clock. -/
def refreshLoop (cfg : DaemonConfig F) : List CycleClock → DaemonState F → Daemon Unit
  | [], _ => pure ()
  | clock :: clocks, state => do
    let is_master ← readRole cfg.vip_inside
    let state ← cycleAs cfg is_master clock state
    refreshLoop cfg clocks state

/-- The main task. -/
def mainTask (cfg : DaemonConfig F) (start : StartClock) (clocks : List CycleClock) :
    Daemon Unit := do
  let _ ← initWeights cfg.net start.init start.lease cfg.weight_state_ttl
  refreshLoop cfg clocks ⟨fun _ => none, ⟨fun _ => none⟩, .default⟩

omit [Scalar F]

/-- `handle_message`, which logs errors. -/
def handleMessage (cfg : DaemonConfig F) (msg : AsgChangeMsg) : Daemon Unit := do
  let ip := cfg.net.ipForSlot msg.slot
  if msg.action = "claim" then
    let _ ← writeWeight ip WEIGHT_ACTIVE cfg.dry_run
  else if msg.action = "release" then
    let _ ← writeWeight ip WEIGHT_DISABLED cfg.dry_run
    match msg.instance_id with
    | some instance_id =>
      let _ ← terminateInstance instance_id cfg.dry_run cfg.term_decrements_capacity
    | none => pure ()

/-- `listener::run`, for a number of rounds: each subscribes anew or takes a message. -/
def listenerTask (cfg : DaemonConfig F) : ℕ → Bool → Daemon Unit
  | 0, _ => pure ()
  | rounds + 1, false => do
    match ← eff .subscribe with
    | .ok () => listenerTask cfg rounds true
    | .error _ => listenerTask cfg rounds false
  | rounds + 1, true => do
    match ← eff .nextMessage with
    | none => listenerTask cfg rounds false
    | some (.error _) => listenerTask cfg rounds true
    | some (.ok msg) => do
      handleMessage cfg msg
      listenerTask cfg rounds true

end Aerosuite.Scale
