import Aerosuite.Scale.Snapshot

/-! How the weight files are initialised at startup, persisted in Redis by the master, and synced
from there by the backup. -/

namespace Aerosuite.Scale

open Pool Program

/-- `content.trim()`. -/
@[irreducible] def trimText (s : String) : String := String.ofList (Text.trim s.toList)

/-- The loop over the weight files of a listing: `body` gets the name of the file and the part of it
that stands for the address.  The first error ends the loop, also that of the listing. -/
def forWeightFiles (failure : Option String)
    (body : String → String → Daemon (Except String Unit)) :
    List String → Daemon (Except String Unit)
  | [] =>
    match failure with
    | none => pure (.ok ())
    | some e => pure (.error e)
  | name :: names =>
    match weightFileIp name with
    | none => forWeightFiles failure body names
    | some ip_str => andThen (body name ip_str) fun _ => forWeightFiles failure body names

/-- The body of the loop of `persist`. -/
def persistFile (name ip_str : String) : Daemon (Except String Unit) := do
  match ← eff (.readFile name) with
  | .ok content =>
    context s!"Redis SET backend:weight:{ip_str} failed"
      (eff (.redis (.set (.backendWeight ip_str) (trimText content))))
  | .error _ => pure (.ok ())

/-- `persist`, where `now` is the time when the files are persisted. -/
def persist (now : ℕ) : Daemon (Except String Unit) :=
  andThen (context "Cannot read weights dir" (eff .readDir)) fun dir =>
    andThen (forWeightFiles dir.failure persistFile dir.names) fun _ =>
      context "Redis SET weight timestamp failed"
        (eff (.redis (.set .backendWeightsTs (toString now))))

/-- The body of the loop of `sync_from_redis`. -/
def syncFile (name ip_str : String) : Daemon (Except String Unit) := do
  match ← eff (.redis (.get (.backendWeight ip_str))) with
  | .ok (some redis_val) =>
    let disk ← eff (.readFile name)
    if trimText (disk.toOption.getD "") = trimText redis_val then pure (.ok ())
    else context s!"Cannot write {name}" (eff (.writeFile name (trimText redis_val)))
  | .ok none | .error _ => pure (.ok ())

/-- `sync_from_redis`. -/
def syncFromRedis : Daemon (Except String Unit) :=
  andThen (context "Cannot read weights dir" (eff .readDir)) fun dir =>
    forWeightFiles dir.failure syncFile dir.names

/-- The body of the loop of `restore_from_redis`. -/
def restoreFile (name ip_str : String) : Daemon (Except String Unit) := do
  match ← eff (.redis (.get (.backendWeight ip_str))) with
  | .ok (some val) => context s!"Cannot write {name}" (eff (.writeFile name (trimText val)))
  | .ok none | .error _ => pure (.ok ())

/-- `restore_from_redis`. -/
def restoreFromRedis : Daemon (Except String Unit) :=
  andThen (eff .readDir) fun dir => forWeightFiles dir.failure restoreFile dir.names

/-- The body of the loop of `compute_from_leases`. -/
def computeFile (live_ips : List Ipv4Addr) (name ip_str : String) : Daemon (Except String Unit) :=
  match Ipv4Addr.parse ip_str.toList with
  | none => pure (.ok ())
  | some ip =>
    context s!"Cannot write {name}"
      (eff (.writeFile name (if ip ∈ live_ips then WEIGHT_ACTIVE else WEIGHT_DISABLED)))

/-- `compute_from_leases`, where `lease_clock` is the time when the lease of a slot is looked at. -/
def computeFromLeases (net : SlotNetwork) (lease_clock : ℕ → ℕ) : Daemon (Except String Unit) := do
  let lease_list := match ← readLeases fun _ => none with
    | .ok (leases, _) => leases
    | .error _ => []
  let live_ips := (lease_list.filter fun l => !l.isExpired (lease_clock l.slot)).map fun l =>
    net.ipForSlot l.slot
  andThen (eff .readDir) fun dir => forWeightFiles dir.failure (computeFile live_ips) dir.names

/-- The persisted state is fresh. -/
def isFresh (ts : Option String) (now ttl_secs : ℕ) : Bool :=
  match ts.bind fun s => Text.parseU64 s.toList with
  | some stored => (now - stored) / 1000 < ttl_secs
  | none => false

/-- `weight_sync::init`, where `now` is the time when it starts. -/
def initWeights (net : SlotNetwork) (now : ℕ) (lease_clock : ℕ → ℕ) (ttl_secs : ℕ) :
    Daemon (Except String Unit) := do
  let ts := match ← eff (.redis (.get .backendWeightsTs)) with
    | .ok ts => ts
    | .error _ => none
  if isFresh ts now ttl_secs then restoreFromRedis else computeFromLeases net lease_clock

end Aerosuite.Scale
