import Aerosuite.Library.Interleaving
import Aerosuite.Library.Text
import Aerosuite.Pool.Slot

/-! The commands of `aeroslot` that run without scripts.  Each is a sequence of single Redis
commands, so any number of them interleave.  What they print is left out, except the slot that a
claim prints and the count of an init, which they return. -/

namespace Aerosuite.Pool

open Program

variable {σ : Type}

section Commands

variable [Zero σ] [Add σ]

def publishAsgChange (slot action : String) (instance_id : Option String) :
    RedisProgram σ Unit :=
  redisCall (.publish ⟨(Text.parseU64 slot.toList).getD 0, action, instance_id⟩)

/-- The body of the loop of `cmd_init`. -/
def cmdInitSlot (added : ℕ) (slot : ℕ) : RedisProgram σ ℕ := do
  let s := slotStr slot
  let leased ← redisCall (.zscore .leases s)
  if leased.isSome then pure added
  else
    let n ← redisCall (.zaddNX .available s 0)
    pure (added + n)

def cmdInit (min max : ℕ) : RedisProgram σ (Except String ℕ) :=
  if min > max then pure (.error s!"--min ({min}) must be ≤ --max ({max})")
  else do
    let added ← foldEach cmdInitSlot 0 (slotRange min max)
    pure (.ok added)

/-- The body of the sweep of `cmd_claim`. -/
def cmdSweepSlot (now : σ) (slot : String) : RedisProgram σ Unit := do
  redisCall (.zrem .leases slot)
  redisCall (.zadd .available slot now)
  redisCall (.del (.owner slot))

/-- `cmd_claim`, which exits with code 1 when it returns no slot. -/
def cmdClaim (now : σ) (instance_id : String) (ttl_ms : σ) : RedisProgram σ (Option String) := do
  let expired ← redisCall (.zrangebyscore .leases now)
  forEach (cmdSweepSlot now) expired
  let result ← redisCall (.zpopmin .available)
  match result with
  | none => pure none
  | some (s, _) =>
    redisCall (.zadd .leases s (now + ttl_ms))
    redisCall (.set (.owner s) instance_id)
    publishAsgChange s "claim" none
    pure (some s)

/-- `cmd_renew`, where `now` is the time after the ownership check. -/
def cmdRenew (slot : ℕ) (instance_id : String) (now ttl_ms : σ) :
    RedisProgram σ (Except String Unit) := do
  let slot_str := slotStr slot
  let owner ← redisCall (.get (.owner slot_str))
  match owner with
  | some o =>
    if o = instance_id then
      redisCall (.zadd .leases slot_str (now + ttl_ms))
      pure (.ok ())
    else
      pure (.error (s!"Slot {slot} is owned by '{o}', not '{instance_id}'. " ++
        "IP conflict likely — caller should panic."))
  | none =>
    pure (.error (s!"Slot {slot} has no owner (lease expired or slot was never claimed). " ++
      "Caller should panic."))

/-- `cmd_release`, where `now` is the time after the ownership check. -/
def cmdRelease (slot : ℕ) (instance_id : String) (now : σ) :
    RedisProgram σ (Except String Unit) := do
  let slot_str := slotStr slot
  let owner ← redisCall (.get (.owner slot_str))
  match owner with
  | none =>
    pure (.error (s!"Slot {slot} has no owner record in Redis — " ++
      "it may have already been released or the owner key was lost."))
  | some o =>
    if o ≠ instance_id then
      pure (.error s!"Slot {slot} is owned by '{o}', not '{instance_id}' — refusing to release.")
    else
      redisCall (.del (.owner slot_str))
      redisCall (.zrem .leases slot_str)
      redisCall (.zadd .available slot_str now)
      publishAsgChange slot_str "release" (some instance_id)
      pure (.ok ())

/-- A command line of `aeroslot`, with the time that its clock shows. -/
inductive NativeCmd (σ : Type) where
  | init (min max : ℕ)
  | claim (now : σ) (instance_id : String) (ttl_ms : σ)
  | renew (slot : ℕ) (instance_id : String) (now ttl_ms : σ)
  | release (slot : ℕ) (instance_id : String) (now : σ)

namespace NativeCmd

def program : NativeCmd σ → RedisProgram σ Unit
  | .init min max => do
    let _ ← cmdInit min max
    pure ()
  | .claim now instance_id ttl_ms => do
    let _ ← cmdClaim now instance_id ttl_ms
    pure ()
  | .renew slot instance_id now ttl_ms => do
    let _ ← cmdRenew slot instance_id now ttl_ms
    pure ()
  | .release slot instance_id now => do
    let _ ← cmdRelease slot instance_id now
    pure ()

/-- The instance that issues the command. -/
def instanceId : NativeCmd σ → Option String
  | .init .. => none
  | .claim _ id _ | .renew _ id .. | .release _ id _ => some id

/-- What the command may issue next, once its claim has popped `popped` and not yet registered the
lease. -/
def Issues (cmd : NativeCmd σ) (popped : Option String) (c : Cmd σ) : Prop :=
  match popped with
  | some s => ∃ now id ttl_ms, cmd = .claim now id ttl_ms ∧ c = .zadd .leases s (now + ttl_ms)
  | none =>
    match c with
    | .zadd .leases s x => ∃ slot id now ttl_ms, cmd = .renew slot id now ttl_ms ∧
        s = slotStr slot ∧ x = now + ttl_ms
    | .zrem .leases s => (∃ now id ttl_ms, cmd = .claim now id ttl_ms) ∨
        ∃ slot id now, cmd = .release slot id now ∧ s = slotStr slot
    | .zpopmin .available => ∃ now id ttl_ms, cmd = .claim now id ttl_ms
    | .zrem .available _ | .zaddNX .leases _ _ | .zpopmin .leases => False
    | _ => True

section Issues

variable {cmd : NativeCmd σ} {popped : Option String} {s : String} {x : σ}

omit [Zero σ]

theorem not_issues_zaddNX_leases : ¬ cmd.Issues popped (.zaddNX .leases s x) := by
  cases popped <;> simp [Issues]

theorem not_issues_zrem_available : ¬ cmd.Issues popped (.zrem .available s) := by
  cases popped <;> simp [Issues]

theorem not_issues_zpopmin_leases : ¬ cmd.Issues popped (.zpopmin .leases) := by
  cases popped <;> simp [Issues]

/-- A lease is written by a claim that has popped the slot, or by a renewal. -/
theorem Issues.zadd_leases (h : cmd.Issues popped (.zadd .leases s x)) :
    (popped = some s ∧ ∃ now id ttl_ms, cmd = .claim now id ttl_ms) ∨
      popped = none ∧ ∃ slot id now ttl_ms, cmd = .renew slot id now ttl_ms := by
  cases popped with
  | some s' =>
    obtain ⟨now, id, ttl_ms, hcmd, hc⟩ := h
    cases hc
    exact .inl ⟨rfl, now, id, ttl_ms, hcmd⟩
  | none =>
    obtain ⟨slot, id, now, ttl_ms, hcmd, -⟩ := h
    exact .inr ⟨rfl, slot, id, now, ttl_ms, hcmd⟩

theorem Issues.zrem_leases (h : cmd.Issues popped (.zrem .leases s)) :
    (∃ now id ttl_ms, cmd = .claim now id ttl_ms) ∨ ∃ slot id now, cmd = .release slot id now := by
  cases popped with
  | some s' =>
    obtain ⟨now, id, ttl_ms, hcmd, hc⟩ := h
    cases hc
  | none =>
    obtain hclaim | ⟨slot, id, now, hcmd, -⟩ := h
    · exact .inl hclaim
    · exact .inr ⟨slot, id, now, hcmd⟩

end Issues

end NativeCmd

end Commands

/-- The slot that a claim has popped and not yet registered, after one more event. -/
def popNext (popped : Option String) (ev : Event (Cmd σ) Cmd.Reply) : Option String :=
  match ev with
  | ⟨.zpopmin .available, some (s, _)⟩ => some s
  | ⟨.zadd .leases _ _, _⟩ => none
  | _ => popped

section Follows

variable [Add σ]

/-- A command that only issues operations without effect on what is popped follows the protocol. -/
theorem follows_of_always {cmd : NativeCmd σ} {α : Type} {p : RedisProgram σ α}
    (hp : p.Always fun c => cmd.Issues none c ∧ ∀ r : c.Reply, popNext none ⟨c, r⟩ = none) :
    Follows cmd.Issues popNext none (p >>= fun _ => pure ()) :=
  .bind hp fun _ => trivial

variable [Zero σ]

theorem init_follows (min max : ℕ) :
    Follows (NativeCmd.init min max : NativeCmd σ).Issues popNext none
      (NativeCmd.init min max : NativeCmd σ).program := by
  refine follows_of_always ?_
  unfold cmdInit
  split
  · trivial
  · refine Always.bind (Always.foldEach (fun added n _ => ?_) 0) fun _ => trivial
    refine ⟨⟨trivial, fun _ => rfl⟩, fun leased => ?_⟩
    cases leased with
    | none => exact ⟨⟨trivial, fun _ => rfl⟩, fun _ => trivial⟩
    | some y => trivial

theorem claim_follows (now : σ) (id : String) (ttl_ms : σ) :
    Follows (NativeCmd.claim now id ttl_ms).Issues popNext none
      (NativeCmd.claim now id ttl_ms).program := by
  simp only [NativeCmd.program, cmdClaim, perform_bind, call_bind, bind_assoc]
  refine ⟨trivial, fun expired => Follows.bind (Always.forEach fun slot _ => ?_) fun _ => ?_⟩
  · simp only [cmdSweepSlot, perform_bind]
    exact ⟨⟨.inl ⟨now, id, ttl_ms, rfl⟩, fun _ => rfl⟩, fun _ => ⟨⟨trivial, fun _ => rfl⟩, fun _ =>
      ⟨⟨trivial, fun _ => rfl⟩, fun _ => trivial⟩⟩⟩
  · refine ⟨⟨now, id, ttl_ms, rfl⟩, fun result => ?_⟩
    cases result with
    | none => trivial
    | some entry =>
      exact ⟨⟨now, id, ttl_ms, rfl, rfl⟩, fun _ => ⟨trivial, fun _ => ⟨trivial, fun _ => trivial⟩⟩⟩

theorem renew_follows (slot : ℕ) (id : String) (now ttl_ms : σ) :
    Follows (NativeCmd.renew slot id now ttl_ms).Issues popNext none
      (NativeCmd.renew slot id now ttl_ms).program := by
  simp only [NativeCmd.program, cmdRenew, perform_bind, call_bind]
  refine ⟨trivial, fun owner => ?_⟩
  cases owner with
  | none => trivial
  | some o =>
    by_cases ho : o = id
    · simp only [ho, if_true]
      exact ⟨⟨slot, id, now, ttl_ms, rfl, rfl, rfl⟩, fun _ => trivial⟩
    · simp only [ho, if_false]
      trivial

theorem release_follows (slot : ℕ) (id : String) (now : σ) :
    Follows (NativeCmd.release slot id now).Issues popNext none
      (NativeCmd.release slot id now).program := by
  simp only [NativeCmd.program, cmdRelease, perform_bind, call_bind]
  refine ⟨trivial, fun owner => ?_⟩
  cases owner with
  | none => trivial
  | some o =>
    by_cases ho : o = id
    · simp only [ho, ne_eq, not_true, if_false]
      exact ⟨trivial, fun _ => ⟨.inr ⟨slot, id, now, rfl, rfl⟩, fun _ => ⟨trivial, fun _ =>
        ⟨trivial, fun _ => trivial⟩⟩⟩⟩
    · simp only [ho, ne_eq, not_false_iff, if_true]
      trivial

theorem NativeCmd.follows (cmd : NativeCmd σ) : Follows cmd.Issues popNext none cmd.program := by
  cases cmd with
  | init min max => exact init_follows min max
  | claim now id ttl_ms => exact claim_follows now id ttl_ms
  | renew slot id now ttl_ms => exact renew_follows slot id now ttl_ms
  | release slot id now => exact release_follows slot id now

end Follows

end Aerosuite.Pool
