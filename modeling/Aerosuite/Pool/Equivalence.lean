import Aerosuite.Library.Binary64
import Aerosuite.Library.Translation
import Aerosuite.Pool.Lua
import Aerosuite.Pool.Native
import Mathlib.Data.UInt

/-! The commands of `aeroslot-lua` next to those of `aeroslot`.  With the same numbers, an init and
a claim issue the same Redis commands in both programs, one by one or in a script, and a renewal and
a release agree on the database that they leave and on success.  The numbers differ: `aeroslot` adds
64-bit words and Redis rounds the sum, where a script rounds both times and adds doubles. -/

namespace Aerosuite.Pool

open Program

variable {σ : Type}

section Commands

variable [Zero σ] [Add σ]

/-- `publish_asg_change` of `aeroslot-lua`, whose message names no instance. -/
def luaPublishAsgChange (slot action : String) : RedisProgram σ Unit :=
  redisCall (.publish ⟨(Text.parseU64 slot.toList).getD 0, action, none⟩)

/-- `cmd_init` of `aeroslot-lua`. -/
def luaCmdInit (min max : ℕ) : RedisProgram σ (Except String ℕ) :=
  if min > max then pure (.error s!"--min ({min}) must be ≤ --max ({max})")
  else do
    let added ← luaInit min max
    pure (.ok added)

/-- `cmd_claim` of `aeroslot-lua`, which exits with code 1 when it returns no slot. -/
def luaCmdClaim (now : σ) (instance_id : String) (ttl_ms : σ) :
    RedisProgram σ (Option String) := do
  let slot ← luaClaim now instance_id ttl_ms
  match slot with
  | some n =>
    luaPublishAsgChange n "claim"
    pure (some n)
  | none => pure none

/-- `cmd_renew` of `aeroslot-lua`.  The error is printed before the exit with code 1. -/
def luaCmdRenew (slot : ℕ) (instance_id : String) (now ttl_ms : σ) :
    RedisProgram σ (Except String Unit) := do
  let ok ← luaRenew (slotStr slot) instance_id now ttl_ms
  if ok = 1 then pure (.ok ())
  else pure (.error s!"❌ Slot {slot} is not owned by '{instance_id}' or has already expired.")

/-- `cmd_release` of `aeroslot-lua`.  The error is printed before the exit with code 1. -/
def luaCmdRelease (slot : ℕ) (instance_id : String) (now : σ) :
    RedisProgram σ (Except String Unit) := do
  let ok ← luaRelease (slotStr slot) instance_id now
  if ok = 1 then
    luaPublishAsgChange (slotStr slot) "release"
    pure (.ok ())
  else pure (.error s!"❌ Slot {slot} is not owned by '{instance_id}'.")

/-- What a command line reports: whether it succeeds, how many slots an init adds, and the slot that
a claim prints. -/
structure Report where
  success : Bool
  added : Option ℕ
  slot : Option String
  deriving DecidableEq

def Report.ofInit (added : Except String ℕ) : Report := ⟨added.isOk, added.toOption, none⟩

def Report.ofClaim (slot : Option String) : Report := ⟨slot.isSome, none, slot⟩

def Report.ofResult (result : Except String Unit) : Report := ⟨result.isOk, none, none⟩

namespace NativeCmd

/-- The command line with `aeroslot`. -/
def native : NativeCmd σ → RedisProgram σ Report
  | .init min max => Report.ofInit <$> cmdInit min max
  | .claim now instance_id ttl_ms => Report.ofClaim <$> cmdClaim now instance_id ttl_ms
  | .renew slot instance_id now ttl_ms => Report.ofResult <$> cmdRenew slot instance_id now ttl_ms
  | .release slot instance_id now => Report.ofResult <$> cmdRelease slot instance_id now

/-- The command line with `aeroslot-lua`. -/
def lua : NativeCmd σ → RedisProgram σ Report
  | .init min max => Report.ofInit <$> luaCmdInit min max
  | .claim now instance_id ttl_ms => Report.ofClaim <$> luaCmdClaim now instance_id ttl_ms
  | .renew slot instance_id now ttl_ms =>
    Report.ofResult <$> luaCmdRenew slot instance_id now ttl_ms
  | .release slot instance_id now => Report.ofResult <$> luaCmdRelease slot instance_id now

end NativeCmd

omit [Add σ] in
theorem cmdInitSlot_eq : (cmdInitSlot : ℕ → ℕ → RedisProgram σ ℕ) = luaInitSlot := by
  funext added slot
  refine congrArg (call (Cmd.zscore .leases (slotStr slot))) (funext fun leased => ?_)
  cases leased <;> rfl

omit [Add σ] in
/-- An init issues the commands of the script. -/
theorem cmdInit_eq_lua (min max : ℕ) :
    (cmdInit min max : RedisProgram σ (Except String ℕ)) = luaCmdInit min max := by
  rw [cmdInit, luaCmdInit, cmdInitSlot_eq]
  rfl

omit [Zero σ] in
/-- A claim issues the commands of the script, and then publishes the same message. -/
theorem cmdClaim_eq_lua (now : σ) (instance_id : String) (ttl_ms : σ) :
    cmdClaim now instance_id ttl_ms = luaCmdClaim now instance_id ttl_ms := by
  have hsweep : (cmdSweepSlot now : String → RedisProgram σ Unit) = luaSweepSlot now := rfl
  rw [cmdClaim, luaCmdClaim, luaClaim, hsweep]
  simp only [perform_bind, call_bind, bind_assoc]
  refine congrArg (call (Cmd.zrangebyscore .leases now)) (funext fun expired => ?_)
  refine congrArg (forEach (luaSweepSlot now) expired >>= ·) (funext fun _ => ?_)
  refine congrArg (call (Cmd.zpopmin .available)) (funext fun result => ?_)
  cases result <;> rfl

end Commands

section Runs

variable [LinearOrder σ]

theorem run_cmdRelease (db : Redis σ) (slot : ℕ) (instance_id : String) (now : σ) :
    (Report.ofResult <$> cmdRelease slot instance_id now).run exec db =
      if db.owner (slotStr slot) = some instance_id then
        (⟨true, none, none⟩, db.vacate (slotStr slot) now)
      else (⟨false, none, none⟩, db) := by
  have hget : exec (Cmd.get (.owner (slotStr slot))) db = (db.owner (slotStr slot), db) := rfl
  rw [run_map, cmdRelease, perform_bind, run_call, hget]
  cases db.owner (slotStr slot) with
  | none => rfl
  | some o =>
    by_cases ho : o = instance_id
    · subst ho
      simp only [ne_eq, not_true, if_false, if_true]
      rfl
    · simp only [ne_eq, ho, not_false_iff, if_true, Option.some.injEq, if_false]
      rfl

theorem run_luaCmdRelease (db : Redis σ) (slot : ℕ) (instance_id : String) (now : σ) :
    (Report.ofResult <$> luaCmdRelease slot instance_id now).run exec db =
      if db.owner (slotStr slot) = some instance_id then
        (⟨true, none, none⟩, db.vacate (slotStr slot) now)
      else (⟨false, none, none⟩, db) := by
  rw [run_map, luaCmdRelease, run_bind, run_luaRelease]
  split
  · rfl
  · rfl

variable [Add σ]

theorem run_cmdRenew (db : Redis σ) (slot : ℕ) (instance_id : String) (now ttl_ms : σ) :
    (Report.ofResult <$> cmdRenew slot instance_id now ttl_ms).run exec db =
      if db.owner (slotStr slot) = some instance_id then
        (⟨true, none, none⟩, db.zadd .leases (slotStr slot) (now + ttl_ms))
      else (⟨false, none, none⟩, db) := by
  have hget : exec (Cmd.get (.owner (slotStr slot))) db = (db.owner (slotStr slot), db) := rfl
  rw [run_map, cmdRenew, perform_bind, run_call, hget]
  cases db.owner (slotStr slot) with
  | none => rfl
  | some o =>
    by_cases ho : o = instance_id
    · subst ho
      simp only [if_true]
      rfl
    · simp only [ho, Option.some.injEq, if_false]
      rfl

theorem run_luaCmdRenew (db : Redis σ) (slot : ℕ) (instance_id : String) (now ttl_ms : σ) :
    (Report.ofResult <$> luaCmdRenew slot instance_id now ttl_ms).run exec db =
      if db.owner (slotStr slot) = some instance_id then
        (⟨true, none, none⟩, db.zadd .leases (slotStr slot) (now + ttl_ms))
      else (⟨false, none, none⟩, db) := by
  rw [run_map, luaCmdRenew, run_bind, run_luaRenew]
  split
  · rfl
  · rfl

/-- With the same numbers a command reports the same and leaves the same with both programs. -/
theorem run_native_eq_run_lua [Zero σ] (cmd : NativeCmd σ) (db : Redis σ) :
    cmd.native.run exec db = cmd.lua.run exec db := by
  cases cmd with
  | init min max => rw [NativeCmd.native, NativeCmd.lua, cmdInit_eq_lua]
  | claim now instance_id ttl_ms => rw [NativeCmd.native, NativeCmd.lua, cmdClaim_eq_lua]
  | renew slot instance_id now ttl_ms =>
    rw [NativeCmd.native, NativeCmd.lua, run_cmdRenew, run_luaCmdRenew]
  | release slot instance_id now =>
    rw [NativeCmd.native, NativeCmd.lua, run_cmdRelease, run_luaCmdRelease]

end Runs

section Conversion

variable {τ : Type} (f : σ → τ) (back : τ → σ)

/-- The command with its scores converted. -/
def Cmd.map : Cmd σ → Cmd τ
  | .zscore key member => .zscore key member
  | .zadd key member score => .zadd key member (f score)
  | .zaddNX key member score => .zaddNX key member (f score)
  | .zrem key member => .zrem key member
  | .zrangebyscore key max => .zrangebyscore key (f max)
  | .zrangeWithScores key => .zrangeWithScores key
  | .zpopmin key => .zpopmin key
  | .get key => .get key
  | .set key value => .set key value
  | .del key => .del key
  | .publish msg => .publish msg

/-- The reply to a converted command, with its scores converted back. -/
def Cmd.reply : (c : Cmd σ) → (c.map f).Reply → c.Reply
  | .zscore .., r => Option.map back r
  | .zpopmin _, r => Option.map (Prod.map id back) r
  | .zrangeWithScores _, r => List.map (Prod.map id back) r
  | .zaddNX .., r | .zrangebyscore .., r | .get _, r => r
  | .zadd .., r | .zrem .., r | .set .., r | .del _, r | .publish _, r => r

namespace NativeCmd

/-- The command line with its times converted. -/
def map : NativeCmd σ → NativeCmd τ
  | .init min max => .init min max
  | .claim now instance_id ttl_ms => .claim (f now) instance_id (f ttl_ms)
  | .renew slot instance_id now ttl_ms => .renew slot instance_id (f now) (f ttl_ms)
  | .release slot instance_id now => .release slot instance_id (f now)

/-- The times that the command adds have a sum that is converted to the sum of theirs. -/
def Adds [Add σ] [Add τ] : NativeCmd σ → Prop
  | .claim now _ ttl_ms | .renew _ _ now ttl_ms => f (now + ttl_ms) = f now + f ttl_ms
  | _ => True

variable [Zero σ] [Add σ] [Zero τ] [Add τ] {f back}

/-- A command of `aeroslot` whose sums are converted to sums is the command with converted times. -/
theorem translate_native (hzero : f 0 = 0) {cmd : NativeCmd σ} (hadds : cmd.Adds f) :
    cmd.native.translate (Cmd.map f) (Cmd.reply f back) = (cmd.map f).native := by
  cases cmd with
  | init min max =>
    rw [native, translate_map, map, native, cmdInit, cmdInit]
    congr 1
    split
    · rfl
    · rw [translate_bind]
      refine congrArg (· >>= _) (translate_foldEach _ _ (fun added slot => ?_) 0 _)
      refine congrArg (call (Cmd.zscore .leases (slotStr slot))) (funext fun leased => ?_)
      cases leased with
      | none => exact congrArg (fun x => call (Cmd.zaddNX .available (slotStr slot) x) _) hzero
      | some x => rfl
  | claim now instance_id ttl_ms =>
    rw [native, translate_map, map, native, cmdClaim, cmdClaim]
    congr 1
    refine congrArg (call (Cmd.zrangebyscore .leases (f now))) (funext fun expired => ?_)
    have hsweep : (forEach (cmdSweepSlot now) expired).translate (Cmd.map f) (Cmd.reply f back) =
        forEach (cmdSweepSlot (f now)) expired := translate_forEach _ _ (fun slot => rfl) expired
    change translate _ _ (forEach (cmdSweepSlot now) expired >>= _) =
      forEach (cmdSweepSlot (f now)) expired >>= _
    rw [← hsweep, translate_bind]
    refine congrArg (_ >>= ·) (funext fun _ => ?_)
    refine congrArg (call (Cmd.zpopmin .available)) (funext fun result => ?_)
    cases result with
    | none => rfl
    | some entry => exact congrArg (fun x => call (Cmd.zadd .leases entry.1 x) _) hadds
  | renew slot instance_id now ttl_ms =>
    rw [native, translate_map, map, native, cmdRenew, cmdRenew]
    congr 1
    refine congrArg (call (Cmd.get (.owner (slotStr slot)))) (funext fun owner => ?_)
    cases owner with
    | none => rfl
    | some o =>
      change translate _ _ (if o = instance_id then _ else _) = if o = instance_id then _ else _
      by_cases ho : o = instance_id
      · rw [if_pos ho, if_pos ho]
        exact congrArg (fun x => call (Cmd.zadd .leases (slotStr slot) x) _) hadds
      · rw [if_neg ho, if_neg ho]
        rfl
  | release slot instance_id now =>
    rw [native, translate_map, map, native, cmdRelease, cmdRelease]
    congr 1
    refine congrArg (call (Cmd.get (.owner (slotStr slot)))) (funext fun owner => ?_)
    cases owner with
    | none => rfl
    | some o =>
      change translate _ _ (if o ≠ instance_id then _ else _) = if o ≠ instance_id then _ else _
      by_cases ho : o ≠ instance_id
      · rw [if_pos ho, if_pos ho]
        rfl
      · rw [if_neg ho, if_neg ho]
        rfl

end NativeCmd

end Conversion

section Doubles

open Binary64

/-- The double that Redis and Lua read in the text of a word. -/
def ofU64 (x : UInt64) : Binary64 := ofRat x.toNat

/-- A command of a client whose scores are words, on a Redis that keeps doubles.  The client
discards the scores of a reply, so it does not matter how they are read `back`. -/
def execWords (back : Binary64 → UInt64) (c : Cmd UInt64) (db : Redis Binary64) :
    c.Reply × Redis Binary64 :=
  (exec (c.map ofU64) db).map (c.reply ofU64 back) id

namespace NativeCmd

/-- The sum of the times is a word. -/
def NoOverflow : NativeCmd UInt64 → Prop
  | .claim now _ ttl_ms | .renew _ _ now ttl_ms => now.toNat + ttl_ms.toNat < 2 ^ 64
  | _ => True

/-- The scores that the command passes to Redis are doubles. -/
def ScoresExact : NativeCmd UInt64 → Prop
  | .init .. => True
  | .claim now _ ttl_ms | .renew _ _ now ttl_ms =>
    Finite now.toNat ∧ Finite (now.toNat + ttl_ms.toNat)
  | .release _ _ now => Finite now.toNat

/-- The times that the command adds are doubles. -/
def TimesExact : NativeCmd UInt64 → Prop
  | .claim now _ ttl_ms | .renew _ _ now ttl_ms => Finite now.toNat ∧ Finite ttl_ms.toNat
  | _ => True

/-- A sum of doubles that is a word is rounded as the sum of the words is. -/
theorem adds_ofU64 {cmd : NativeCmd UInt64} (hover : cmd.NoOverflow) (hexact : cmd.TimesExact) :
    cmd.Adds ofU64 := by
  have hadd : ∀ {now ttl_ms : UInt64}, now.toNat + ttl_ms.toNat < 2 ^ 64 →
      Finite now.toNat → Finite ttl_ms.toNat →
        ofU64 (now + ttl_ms) = ofU64 now + ofU64 ttl_ms := fun hlt hnow httl => by
    rw [ofU64, ofU64, ofU64, ofRat_add hnow httl, UInt64.toNat_add, Nat.mod_eq_of_lt hlt,
      Nat.cast_add]
  cases cmd with
  | init min max => trivial
  | claim now instance_id ttl_ms => exact hadd hover hexact.1 hexact.2
  | renew slot instance_id now ttl_ms => exact hadd hover hexact.1 hexact.2
  | release slot instance_id now => trivial

end NativeCmd

/-- On every database a command reports the same and leaves the same with both programs, if its
times are doubles. -/
theorem native_eq_lua (back : Binary64 → UInt64) (cmd : NativeCmd UInt64) (db : Redis Binary64)
    (hover : cmd.NoOverflow) (hexact : cmd.TimesExact) :
    cmd.native.run (execWords back) db = (cmd.map ofU64).lua.run exec db := by
  have hzero : ofU64 0 = 0 := congrArg ofRat Nat.cast_zero
  calc cmd.native.run (execWords back) db
      = (cmd.native.translate (Cmd.map ofU64) (Cmd.reply ofU64 back)).run exec db :=
        (run_translate _ _ exec cmd.native db).symm
    _ = (cmd.map ofU64).native.run exec db := by
        rw [NativeCmd.translate_native hzero (NativeCmd.adds_ofU64 hover hexact)]
    _ = (cmd.map ofU64).lua.run exec db := run_native_eq_run_lua _ _

/-- The instance i-a has slot 3, whose lease is over. -/
def lapsedPool : Redis Binary64 :=
  (Redis.empty.zadd .leases (slotStr 3) (ofRat 1000)).set (.owner (slotStr 3)) "i-a"

theorem native_eq_lua_claim :
    (NativeCmd.claim 1700000000001 "i-b" 60000).native.run (execWords fun _ => 0) lapsedPool =
      ((NativeCmd.claim 1700000000001 "i-b" 60000).map ofU64).lua.run exec lapsedPool :=
  native_eq_lua _ _ _ (show (1700000000001 : UInt64).toNat + UInt64.toNat 60000 < 2 ^ 64 by decide)
    ⟨finite_natCast (m := 1700000000001) (k := 0) (by decide) (by decide),
      finite_natCast (m := 60000) (k := 0) (by decide) (by decide)⟩

/-- A time to live of 2 ^ 53 + 1 is no double, and the sum is: a script adds 2 ^ 53. -/
theorem lua_rounds_ttl : ¬ ∀ (back : Binary64 → UInt64) (cmd : NativeCmd UInt64)
    (db : Redis Binary64), cmd.NoOverflow → cmd.ScoresExact →
      cmd.native.run (execWords back) db = (cmd.map ofU64).lua.run exec db := by
  intro h
  have hsum := finite_natCast (m := 4504449627370497) (k := 1) (by decide) (by decide)
  have hcast : ((UInt64.toNat 1700000000001 : ℕ) : ℚ) + UInt64.toNat 9007199254740993 =
      ((4504449627370497 * 2 ^ 1 : ℕ) : ℚ) := by
    rw [← Nat.cast_add]
    rfl
  have heq := h (fun _ => 0) (.renew 3 "i-a" 1700000000001 9007199254740993) lapsedPool
    (show UInt64.toNat 1700000000001 + UInt64.toNat 9007199254740993 < 2 ^ 64 by decide)
    ⟨finite_natCast (m := 1700000000001) (k := 0) (by decide) (by decide), hcast ▸ hsum⟩
  have hscore := congrArg (fun result => result.2.score .leases (slotStr 3)) heq
  exact absurd hscore (by decide +kernel)

end Doubles

end Aerosuite.Pool
