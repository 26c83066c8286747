import Aerosuite.Library.Program
import Aerosuite.Library.SortedSet
import Mathlib.Data.String.Basic
import Mathlib.Logic.Function.Basic
import Mathlib.Algebra.Order.Ring.Nat

/-! The Redis database that holds the slot pool: the two sorted sets and the string keys of
`redis_pool`, the commands that the programs issue, and what each command does.  Scores are of any
ordered type `σ`: Redis keeps doubles, and the programs write whole milliseconds. -/

namespace Aerosuite.Pool

/-- The keys of the sorted sets, `slots:available` and `slots:leases`. -/
inductive SetKey where
  | available
  | leases
  deriving DecidableEq

/-- The string keys: `slot:owner:<slot>`, `backend:weight:<IPv4>` and `backend:weights:ts`. -/
inductive StringKey where
  | owner (slot : String)
  | backendWeight (ip : String)
  | backendWeightsTs
  deriving DecidableEq

/-- A message on the `asg-change` channel. -/
structure AsgChangeMsg where
  slot : ℕ
  action : String
  instance_id : Option String
  deriving DecidableEq

/-- The Redis commands that the programs issue. -/
inductive Cmd (σ : Type) where
  | zscore (key : SetKey) (member : String)
  | zadd (key : SetKey) (member : String) (score : σ)
  | zaddNX (key : SetKey) (member : String) (score : σ)
  | zrem (key : SetKey) (member : String)
  | zrangebyscore (key : SetKey) (max : σ)
  | zrangeWithScores (key : SetKey)
  | zpopmin (key : SetKey)
  | get (key : StringKey)
  | set (key : StringKey) (value : String)
  | del (key : StringKey)
  | publish (msg : AsgChangeMsg)
  deriving DecidableEq

variable {σ : Type}

/-- What a command replies.  The counts that the programs discard are left out. -/
abbrev Cmd.Reply : Cmd σ → Type
  | .zscore .. => Option σ
  | .zaddNX .. => ℕ
  | .zrangebyscore .. => List String
  | .zrangeWithScores .. => List (String × σ)
  | .zpopmin .. => Option (String × σ)
  | .get .. => Option String
  | .zadd .. | .zrem .. | .set .. | .del .. | .publish .. => Unit

/-- A program that talks to Redis. -/
abbrev RedisProgram (σ : Type) := Program (Cmd σ) Cmd.Reply

/-- The program that issues one command. -/
abbrev redisCall (c : Cmd σ) : RedisProgram σ c.Reply := Program.perform c

/-- A slot number as the text that stands for it in Redis. -/
def slotStr (slot : ℕ) : String := toString slot

theorem slotStr_toList (slot : ℕ) : (slotStr slot).toList = Nat.toDigits 10 slot :=
  Nat.toList_repr

theorem slotStr_injective : Function.Injective slotStr := fun m n h => by
  have hdigits : Nat.toDigits 10 m = Nat.toDigits 10 n := by
    rw [← slotStr_toList, ← slotStr_toList, h]
  rw [← Nat.ofDigitChars_toDigits (b := 10) (n := m) (by decide) (by decide), hdigits,
    Nat.ofDigitChars_toDigits (by decide) (by decide)]

/-- The numbers `min` to `max`. -/
def slotRange (min max : ℕ) : List ℕ := List.range' min (max + 1 - min)

theorem mem_slotRange {min max n : ℕ} : n ∈ slotRange min max ↔ min ≤ n ∧ n ≤ max := by
  simp only [slotRange, List.mem_range'_1]
  omega

theorem slotRange_nodup (min max : ℕ) : (slotRange min max).Nodup := List.nodup_range'

/-- The database. -/
structure Redis (σ : Type) [LinearOrder σ] where
  sets : SetKey → SortedSet String σ
  strings : StringKey → Option String

variable [LinearOrder σ]

namespace Redis

/-- The database without keys. -/
def empty : Redis σ := ⟨fun _ => ∅, fun _ => none⟩

def score (db : Redis σ) (key : SetKey) (slot : String) : Option σ := (db.sets key).score slot

def owner (db : Redis σ) (slot : String) : Option String := db.strings (.owner slot)

def zadd (db : Redis σ) (key : SetKey) (slot : String) (x : σ) : Redis σ :=
  { db with sets := Function.update db.sets key ((db.sets key).add slot x) }

def zrem (db : Redis σ) (key : SetKey) (slot : String) : Redis σ :=
  { db with sets := Function.update db.sets key ((db.sets key).remove slot) }

def set (db : Redis σ) (key : StringKey) (value : String) : Redis σ :=
  { db with strings := Function.update db.strings key (some value) }

def del (db : Redis σ) (key : StringKey) : Redis σ :=
  { db with strings := Function.update db.strings key none }

@[simp] theorem score_empty (key : SetKey) (slot : String) :
    (empty : Redis σ).score key slot = none := rfl

@[simp] theorem owner_empty (slot : String) : (empty : Redis σ).owner slot = none := rfl

@[simp] theorem score_zadd (db : Redis σ) (key key' : SetKey) (slot slot' : String) (x : σ) :
    (db.zadd key slot x).score key' slot' =
      if key' = key ∧ slot' = slot then some x else db.score key' slot' := by
  by_cases h : key' = key
  · subst h
    simp [zadd, score]
  · simp [zadd, score, h]

@[simp] theorem score_zrem (db : Redis σ) (key key' : SetKey) (slot slot' : String) :
    (db.zrem key slot).score key' slot' =
      if key' = key ∧ slot' = slot then none else db.score key' slot' := by
  by_cases h : key' = key
  · subst h
    simp [zrem, score]
  · simp [zrem, score, h]

@[simp] theorem score_set (db : Redis σ) (key : StringKey) (value : String) (key' : SetKey)
    (slot : String) : (db.set key value).score key' slot = db.score key' slot := rfl

@[simp] theorem score_del (db : Redis σ) (key : StringKey) (key' : SetKey) (slot : String) :
    (db.del key).score key' slot = db.score key' slot := rfl

@[simp] theorem strings_zadd (db : Redis σ) (key : SetKey) (slot : String) (x : σ) :
    (db.zadd key slot x).strings = db.strings := rfl

@[simp] theorem strings_zrem (db : Redis σ) (key : SetKey) (slot : String) :
    (db.zrem key slot).strings = db.strings := rfl

@[simp] theorem owner_zadd (db : Redis σ) (key : SetKey) (slot slot' : String) (x : σ) :
    (db.zadd key slot x).owner slot' = db.owner slot' := rfl

@[simp] theorem owner_zrem (db : Redis σ) (key : SetKey) (slot slot' : String) :
    (db.zrem key slot).owner slot' = db.owner slot' := rfl

@[simp] theorem owner_set_owner (db : Redis σ) (slot slot' value : String) :
    (db.set (.owner slot) value).owner slot' =
      if slot' = slot then some value else db.owner slot' := by
  simp [owner, set, Function.update_apply]

@[simp] theorem owner_del_owner (db : Redis σ) (slot slot' : String) :
    (db.del (.owner slot)).owner slot' = if slot' = slot then none else db.owner slot' := by
  simp [owner, del, Function.update_apply]

theorem ext_score {db db' : Redis σ} (hscore : ∀ key slot, db.score key slot = db'.score key slot)
    (hstrings : ∀ key, db.strings key = db'.strings key) : db = db' := by
  obtain ⟨sets, strings⟩ := db
  obtain ⟨sets', strings'⟩ := db'
  obtain rfl : strings = strings' := funext hstrings
  obtain rfl : sets = sets' := funext fun key => SortedSet.ext_score (hscore key)
  rfl

end Redis

/-- The effect of a command, which Redis executes atomically. -/
def exec : (c : Cmd σ) → Redis σ → c.Reply × Redis σ
  | .zscore key member, db => (db.score key member, db)
  | .zadd key member x, db => ((), db.zadd key member x)
  | .zaddNX key member x, db =>
    if db.score key member = none then ((1 : ℕ), db.zadd key member x) else ((0 : ℕ), db)
  | .zrem key member, db => ((), db.zrem key member)
  | .zrangebyscore key max, db => ((db.sets key).upTo max, db)
  | .zrangeWithScores key, db => ((db.sets key).toList, db)
  | .zpopmin key, db =>
    match (db.sets key).least with
    | none => (none, db)
    | some (member, x) => (some (member, x), db.zrem key member)
  | .get key, db => (db.strings key, db)
  | .set key value, db => ((), db.set key value)
  | .del key, db => ((), db.del key)
  | .publish _, db => ((), db)

theorem score_of_zpopmin {db : Redis σ} {key : SetKey} {slot : String} {x : σ}
    (h : (exec (.zpopmin key) db).1 = some (slot, x)) : db.score key slot = some x := by
  cases hleast : (db.sets key).least with
  | none => simp [exec, hleast] at h
  | some entry =>
    obtain ⟨slot', x'⟩ := entry
    simp only [exec, hleast, Option.some.injEq, Prod.mk.injEq] at h
    obtain ⟨rfl, rfl⟩ := h
    exact SortedSet.score_of_least hleast

end Aerosuite.Pool
