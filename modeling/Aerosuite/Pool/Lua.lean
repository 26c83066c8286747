import Aerosuite.Pool.Slot
import Mathlib.Order.Interval.Finset.Nat

/-! The Lua scripts of `aeroslot-lua`.  Redis runs a script to its end before any other command, so
a script acts on the database as its `run`.  The numbers of a script are of the type `σ` of the
scores: Lua computes with the doubles that Redis stores.  `Script.represents` is the refinement:
on a database that represents slot states, a script does to each slot what `SlotState.after`
says. -/

namespace Aerosuite.Pool

open Program

variable {σ : Type}

section Scripts

variable [Zero σ] [Add σ]

/-- The body of the loop of `LUA_INIT`. -/
def luaInitSlot (added : ℕ) (slot : ℕ) : RedisProgram σ ℕ := do
  let s := slotStr slot
  let leased ← redisCall (.zscore .leases s)
  match leased with
  | some _ => pure added
  | none =>
    let n ← redisCall (.zaddNX .available s 0)
    pure (added + n)

/-- `LUA_INIT`. -/
def luaInit (min max : ℕ) : RedisProgram σ ℕ :=
  foldEach luaInitSlot 0 (slotRange min max)

/-- The body of the sweep of `LUA_CLAIM`. -/
def luaSweepSlot (now : σ) (slot : String) : RedisProgram σ Unit := do
  redisCall (.zrem .leases slot)
  redisCall (.zadd .available slot now)
  redisCall (.del (.owner slot))

/-- `LUA_CLAIM`. -/
def luaClaim (now : σ) (owner : String) (ttl_ms : σ) : RedisProgram σ (Option String) := do
  let expired ← redisCall (.zrangebyscore .leases now)
  forEach (luaSweepSlot now) expired
  let result ← redisCall (.zpopmin .available)
  match result with
  | none => pure none
  | some (slot, _) =>
    redisCall (.zadd .leases slot (now + ttl_ms))
    redisCall (.set (.owner slot) owner)
    pure (some slot)

/-- `LUA_RENEW`: 1 when renewed, 0 when not the owner. -/
def luaRenew (slot owner : String) (now ttl_ms : σ) : RedisProgram σ ℕ := do
  let current ← redisCall (.get (.owner slot))
  if current ≠ some owner then pure 0
  else
    redisCall (.zadd .leases slot (now + ttl_ms))
    pure 1

/-- `LUA_RELEASE`: 1 when released, 0 when not the owner. -/
def luaRelease (slot owner : String) (now : σ) : RedisProgram σ ℕ := do
  let current ← redisCall (.get (.owner slot))
  if current ≠ some owner then pure 0
  else
    redisCall (.del (.owner slot))
    redisCall (.zrem .leases slot)
    redisCall (.zadd .available slot now)
    pure 1

/-- A script with its arguments. -/
inductive Script (σ : Type) where
  | init (min max : ℕ)
  | claim (now : σ) (instance_id : String) (ttl_ms : σ)
  | renew (slot instance_id : String) (now ttl_ms : σ)
  | release (slot instance_id : String) (now : σ)

/-- What a script returns: a number, or the slot that a claim got. -/
inductive ScriptReply where
  | count (n : ℕ)
  | slot (slot : Option String)
  deriving DecidableEq

variable [LinearOrder σ]

/-- A script's reply and the database after it. -/
def Script.run : Script σ → Redis σ → ScriptReply × Redis σ
  | .init min max, db => ((luaInit min max).run exec db).map .count id
  | .claim now instance_id ttl_ms, db =>
    ((luaClaim now instance_id ttl_ms).run exec db).map .slot id
  | .renew slot instance_id now ttl_ms, db =>
    ((luaRenew slot instance_id now ttl_ms).run exec db).map .count id
  | .release slot instance_id now, db =>
    ((luaRelease slot instance_id now).run exec db).map .count id

end Scripts

/-- `slot` is one of the numbers `min` to `max`. -/
def InRange (min max : ℕ) (slot : String) : Prop := ∃ n ∈ slotRange min max, slot = slotStr n

instance (min max : ℕ) (slot : String) : Decidable (InRange min max slot) :=
  inferInstanceAs (Decidable (∃ n ∈ slotRange min max, slot = slotStr n))

/-- What a script that replied `reply` does to a slot. -/
def SlotState.after [Zero σ] [Add σ] [LinearOrder σ] (slot : String) :
    Script σ → ScriptReply → SlotState σ → SlotState σ
  | .init min max, _, st => if InRange min max slot then st.enter else st
  | .claim now instance_id ttl_ms, .slot (some s), st =>
    if slot = s then .held instance_id (now + ttl_ms) else st.sweep now
  | .claim now _ _, _, st => st.sweep now
  | .renew s instance_id now ttl_ms, .count 1, st =>
    if slot = s then .held instance_id (now + ttl_ms) else st
  | .release s _ now, .count 1, st => if slot = s then .free now else st
  | _, _, st => st

section Init

variable [LinearOrder σ]

/-- The slot numbers of a list that are not in the pool. -/
def Redis.missing (db : Redis σ) (slots : List ℕ) : List ℕ :=
  slots.filter fun n => ¬ db.Pooled (slotStr n)

theorem Redis.mem_missing (db : Redis σ) (min max : ℕ) (slot : String) :
    (∃ n ∈ db.missing (slotRange min max), slot = slotStr n) ↔
      InRange min max slot ∧ ¬ db.Pooled slot := by
  simp only [Redis.missing, List.mem_filter, decide_eq_true_eq, InRange]
  constructor
  · rintro ⟨n, ⟨hn, hmissing⟩, rfl⟩
    exact ⟨⟨n, hn, rfl⟩, hmissing⟩
  · rintro ⟨⟨n, hn, rfl⟩, hmissing⟩
    exact ⟨n, ⟨hn, hmissing⟩, rfl⟩

theorem Redis.length_missing (db : Redis σ) (min max : ℕ) :
    (db.missing (slotRange min max)).length =
      ((Finset.Icc min max).filter fun n => ¬ db.Pooled (slotStr n)).card := by
  rw [missing, ← List.toFinset_card_of_nodup ((slotRange_nodup min max).filter _)]
  congr 1
  ext n
  simp [mem_slotRange]

variable [Zero σ]

/-- The database with the slot numbers of a list offered since 0. -/
def Redis.offer (db : Redis σ) (slots : List ℕ) : Redis σ :=
  slots.foldl (fun db n => db.zadd .available (slotStr n) 0) db

theorem Redis.available_offer (db : Redis σ) (slots : List ℕ) (slot : String) :
    (db.offer slots).score .available slot =
      if ∃ n ∈ slots, slot = slotStr n then some 0 else db.score .available slot := by
  induction slots generalizing db with
  | nil => simp [offer]
  | cons n slots ih =>
    rw [offer, List.foldl_cons, ← offer, ih]
    by_cases hmem : ∃ n ∈ slots, slot = slotStr n <;> by_cases hs : slot = slotStr n <;>
      simp [hmem, hs]

theorem Redis.leases_offer (db : Redis σ) (slots : List ℕ) (slot : String) :
    (db.offer slots).score .leases slot = db.score .leases slot := by
  induction slots generalizing db with
  | nil => rfl
  | cons n slots ih =>
    rw [offer, List.foldl_cons, ← offer, ih]
    simp

theorem Redis.strings_offer (db : Redis σ) (slots : List ℕ) :
    (db.offer slots).strings = db.strings := by
  induction slots generalizing db with
  | nil => rfl
  | cons n slots ih =>
    rw [offer, List.foldl_cons, ← offer, ih]
    simp

theorem Redis.pooled_offer (db : Redis σ) (slots : List ℕ) (slot : String) :
    (db.offer slots).Pooled slot ↔ db.Pooled slot ∨ ∃ n ∈ slots, slot = slotStr n := by
  rw [Pooled, available_offer, leases_offer, Pooled]
  by_cases hmem : ∃ n ∈ slots, slot = slotStr n <;> simp [hmem]

theorem Redis.missing_offer (db : Redis σ) (slots : List ℕ) :
    (db.offer (db.missing slots)).missing slots = [] := by
  refine List.filter_eq_nil_iff.mpr fun n hn => ?_
  have hpooled : (db.offer (db.missing slots)).Pooled (slotStr n) := by
    rw [pooled_offer]
    by_cases h : db.Pooled (slotStr n)
    · exact .inl h
    · exact .inr ⟨n, List.mem_filter.mpr ⟨hn, by simpa using h⟩, rfl⟩
  simpa using hpooled

theorem run_luaInitSlot (db : Redis σ) (added n : ℕ) :
    (luaInitSlot added n).run exec db =
      (added + (db.missing [n]).length, db.offer (db.missing [n])) := by
  cases hl : db.score .leases (slotStr n) <;> cases ha : db.score .available (slotStr n) <;>
    simp [luaInitSlot, exec, hl, ha, Redis.missing, Redis.offer, Redis.Pooled]

/-- The loop of `LUA_INIT` over distinct slot numbers offers those that are missing and counts
them. -/
theorem run_luaInit_loop (db : Redis σ) (added : ℕ) (slots : List ℕ) (hnodup : slots.Nodup) :
    (foldEach luaInitSlot added slots).run exec db =
      (added + (db.missing slots).length, db.offer (db.missing slots)) := by
  induction slots generalizing db added with
  | nil => simp [Redis.missing, Redis.offer]
  | cons n slots ih =>
    obtain ⟨hn, hrest⟩ := List.nodup_cons.mp hnodup
    -- Offering `n` leaves the other slot numbers missing, since its text differs from theirs.
    have hmissing : (db.offer (db.missing [n])).missing slots = db.missing slots := by
      refine List.filter_congr fun m hm => ?_
      have hne : slotStr m ≠ slotStr n := fun h => hn (slotStr_injective h ▸ hm)
      have hex : ¬ ∃ k ∈ db.missing [n], slotStr m = slotStr k := by
        rintro ⟨k, hk, heq⟩
        obtain rfl := List.mem_singleton.mp (List.mem_filter.mp hk).1
        exact hne heq
      simp only [Redis.pooled_offer, hex, or_false]
    have hsplit : db.missing (n :: slots) = db.missing [n] ++ db.missing slots :=
      List.filter_append [n] slots
    rw [foldEach_cons, run_bind, run_luaInitSlot, ih _ _ hrest, hmissing, hsplit,
      List.length_append, Nat.add_assoc]
    simp [Redis.offer]

theorem run_luaInit (db : Redis σ) (min max : ℕ) :
    (luaInit min max).run exec db =
      ((db.missing (slotRange min max)).length, db.offer (db.missing (slotRange min max))) := by
  rw [luaInit, run_luaInit_loop _ _ _ (slotRange_nodup min max), Nat.zero_add]

/-- Offering the missing slots of a range enters each slot of the range. -/
theorem Represents.offer {db : Redis σ} {slots : String → SlotState σ} (h : Represents db slots)
    (min max : ℕ) : Represents (db.offer (db.missing (slotRange min max)))
      fun slot => if InRange min max slot then (slots slot).enter else slots slot := by
  have hmem : ∀ slot, (∃ n ∈ db.missing (slotRange min max), slot = slotStr n) ↔
      InRange min max slot ∧ slots slot = .absent := fun slot => by
    rw [db.mem_missing, h.pooled, not_not]
  have key : ∀ slot,
      (if InRange min max slot then (slots slot).enter else slots slot) =
        if InRange min max slot ∧ slots slot = .absent then .free 0 else slots slot :=
          fun slot => by
    by_cases hr : InRange min max slot <;> cases hs : slots slot <;> simp [hr, SlotState.enter]
  constructor
  · intro slot
    rw [Redis.available_offer, key]
    simp only [hmem]
    split
    · rfl
    · exact h.available slot
  · intro slot
    rw [Redis.leases_offer, key, h.lease]
    split
    · next habsent => rw [habsent.2]; rfl
    · rfl
  · intro slot
    rw [Redis.owner, Redis.strings_offer, ← Redis.owner, key, h.owner]
    split
    · next habsent => rw [habsent.2]; rfl
    · rfl

end Init

section Runs

variable [LinearOrder σ]

theorem run_luaSweep (db : Redis σ) (now : σ) (expired : List String) :
    (forEach (luaSweepSlot now) expired).run exec db = ((), db.sweep now expired) := by
  induction expired generalizing db with
  | nil => rfl
  | cons slot expired ih =>
    rw [forEach_cons, run_bind, Redis.sweep_cons, ← ih]
    rfl

theorem run_luaRelease (db : Redis σ) (slot owner : String) (now : σ) :
    (luaRelease slot owner now).run exec db =
      if db.owner slot = some owner then (1, db.vacate slot now) else (0, db) := by
  by_cases h : db.owner slot = some owner <;>
    simp_all [luaRelease, exec, Redis.owner, Redis.vacate]

variable [Add σ]

theorem run_luaClaim (db : Redis σ) (now : σ) (owner : String) (ttl_ms : σ) :
    (luaClaim now owner ttl_ms).run exec db =
      match ((db.sweep now ((db.sets .leases).upTo now)).sets .available).least with
      | none => (none, db.sweep now ((db.sets .leases).upTo now))
      | some (slot, _) =>
        (some slot, (db.sweep now ((db.sets .leases).upTo now)).take slot owner
          (now + ttl_ms)) := by
  simp only [luaClaim, perform_bind, run_call, run_bind, exec, run_luaSweep]
  generalize db.sweep now ((db.sets .leases).upTo now) = swept
  cases hleast : (swept.sets .available).least with
  | none => rfl
  | some entry => rfl

theorem run_luaRenew (db : Redis σ) (slot owner : String) (now ttl_ms : σ) :
    (luaRenew slot owner now ttl_ms).run exec db =
      if db.owner slot = some owner then (1, db.zadd .leases slot (now + ttl_ms)) else (0, db) := by
  by_cases h : db.owner slot = some owner <;> simp_all [luaRenew, exec, Redis.owner]

end Runs

end Aerosuite.Pool
