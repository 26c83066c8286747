import Aerosuite.Library.Rely
import Aerosuite.Pool.Native

/-! The heartbeat of `aeroslot`.  It renews a lease at an interval, and reconnects and tries again
when Redis cannot be reached.  Its operations get any replies: a command may fail before or after it
took effect, and a new connection may fail as well. -/

namespace Aerosuite.Pool

open Program

/-- What a `redis::RedisError` says of itself. -/
structure RedisError where
  is_io_error : Bool
  is_connection_dropped : Bool
  deriving DecidableEq

/-- What a client of the pool does: Redis commands that may fail, and what surrounds them.  `select`
waits for a tick or a SIGTERM. -/
inductive ClientOp (σ : Type) where
  | redis (c : Cmd σ)
  | nowMs
  | signal
  | connect
  | sleep (ms : ℕ)
  | select (secs : ℕ)
  deriving DecidableEq

/-- `signal` and `connect` reply whether they succeeded, `select` whether a SIGTERM came. -/
abbrev ClientOp.Reply {σ : Type} : ClientOp σ → Type
  | .redis c => Except RedisError c.Reply
  | .nowMs => σ
  | .signal | .connect | .select _ => Bool
  | .sleep _ => Unit

abbrev ClientProgram (σ : Type) := Program (ClientOp σ) ClientOp.Reply

/-- The program that performs one operation. -/
abbrev clientCall {σ : Type} (op : ClientOp σ) : ClientProgram σ op.Reply := perform op

/-- How long an operation is meant to take, in milliseconds. -/
def ClientOp.nominal {σ : Type} : ClientOp σ → ℕ
  | .sleep ms => ms
  | .select secs => secs * 1000
  | _ => 0

/-- An error of `cmd_renew`: one of Redis with its context, or one of the program. -/
inductive RenewError where
  | redis (context : String) (e : RedisError)
  | logical (message : String)
  deriving DecidableEq

/-- `is_redis_io_error`. -/
def RenewError.isRedisIoError : RenewError → Bool
  | .redis _ e => e.is_io_error || e.is_connection_dropped
  | .logical _ => false

/-- The errors of `cmd_heartbeat`. -/
inductive HeartbeatError where
  | signal
  | connect
  | renew (attempt : ℕ) (cause : RenewError)
  deriving DecidableEq

/-- The context that `cmd_heartbeat` gives an error. -/
def HeartbeatError.context : HeartbeatError → String
  | .signal => "Failed to register SIGTERM handler"
  | .connect => "Failed to connect to Redis"
  | .renew attempt _ =>
    if attempt > 0 then s!"Renew failed after {attempt} reconnect attempt(s)"
    else "Renew failed with a non-retryable error"

variable {σ : Type}

/-- The arguments of `aeroslot heartbeat`. -/
structure Heartbeat (σ : Type) where
  slot : ℕ
  instance_id : String
  ttl_ms : σ
  interval : ℕ
  retry_attempts : ℕ
  retry_delay_ms : ℕ

namespace Heartbeat

variable [Add σ] (hb : Heartbeat σ)

/-- `cmd_renew` on a connection that may fail. -/
def renew : ClientProgram σ (Except RenewError Unit) := do
  let slot_str := slotStr hb.slot
  match ← clientCall (.redis (.get (.owner slot_str))) with
  | .error e => pure (.error (.redis "GET owner failed" e))
  | .ok (some o) =>
    if o = hb.instance_id then
      let now ← clientCall .nowMs
      match ← clientCall (.redis (.zadd .leases slot_str (now + hb.ttl_ms))) with
      | .error e => pure (.error (.redis "ZADD failed" e))
      | .ok _ => pure (.ok ())
    else
      pure (.error (.logical (s!"Slot {hb.slot} is owned by '{o}', not '{hb.instance_id}'. " ++
        "IP conflict likely — caller should panic.")))
  | .ok none =>
    pure (.error (.logical
      (s!"Slot {hb.slot} has no owner (lease expired or slot was never claimed). " ++
        "Caller should panic.")))

/-- The inner loop of `cmd_heartbeat`, when `left` of the attempts to reconnect are left. -/
def renewLoop : ℕ → ClientProgram σ (Except HeartbeatError Unit)
  | 0 => do
    match ← hb.renew with
    | .ok _ => pure (.ok ())
    | .error e => pure (.error (.renew hb.retry_attempts e))
  | left + 1 => do
    match ← hb.renew with
    | .ok _ => pure (.ok ())
    | .error e =>
      if e.isRedisIoError then
        clientCall (.sleep hb.retry_delay_ms)
        -- When the new connection fails, the old one is kept.
        let _ ← clientCall .connect
        renewLoop left
      else pure (.error (.renew (hb.retry_attempts - (left + 1)) e))

/-- The outer loop of `cmd_heartbeat`, for a number of rounds. -/
def loop : ℕ → ClientProgram σ (Option (Except HeartbeatError Unit))
  | 0 => pure none
  | rounds + 1 => do
    match ← hb.renewLoop hb.retry_attempts with
    | .error e => pure (some (.error e))
    | .ok _ =>
      let sigterm ← clientCall (.select hb.interval)
      if sigterm then pure (some (.ok ())) else loop rounds

/-- `cmd_heartbeat`, for a number of rounds of its loop. -/
def run (rounds : ℕ) : ClientProgram σ (Option (Except HeartbeatError Unit)) := do
  let registered ← clientCall .signal
  if registered then
    let connected ← clientCall .connect
    if connected then hb.loop rounds else pure (some (.error .connect))
  else pure (some (.error .signal))

omit [Add σ] in
/-- A reply that must end the heartbeat: the slot is not its own, or Redis failed for another reason
than the connection. -/
def Fatal : Event (ClientOp σ) ClientOp.Reply → Prop
  | ⟨.redis (.get _), .ok owner⟩ => owner ≠ some hb.instance_id
  | ⟨.redis _, .error e⟩ => (e.is_io_error || e.is_connection_dropped) = false
  | _ => False

/-- What the heartbeat may do after the events `t`.  It writes nothing but the lease of its slot,
and that right after it found itself to be the owner. -/
def Guards (t : List (Event (ClientOp σ) ClientOp.Reply)) : ClientOp σ → Prop
  | .redis c => c = .get (.owner (slotStr hb.slot)) ∨
      ∃ t' now, t = t' ++ [⟨.redis (.get (.owner (slotStr hb.slot))), .ok (some hb.instance_id)⟩,
        ⟨.nowMs, now⟩] ∧ c = .zadd .leases (slotStr hb.slot) (now + hb.ttl_ms)
  | _ => True

section Guarded

/-- No event so far must end the heartbeat. -/
def Unharmed (t : List (Event (ClientOp σ) ClientOp.Reply)) : Prop := ∀ ev ∈ t, ¬ hb.Fatal ev

def Guard (t : List (Event (ClientOp σ) ClientOp.Reply)) (op : ClientOp σ) : Prop :=
  hb.Unharmed t ∧ hb.Guards t op

variable {hb} {t : List (Event (ClientOp σ) ClientOp.Reply)}

omit [Add σ] in
theorem Unharmed.record {ev : Event (ClientOp σ) ClientOp.Reply} (ht : hb.Unharmed t)
    (hev : ¬ hb.Fatal ev) : hb.Unharmed (record t ev) := by
  intro ev' hmem
  rcases List.mem_append.mp hmem with hmem | hmem
  · exact ht ev' hmem
  · obtain rfl := List.mem_singleton.mp hmem
    exact hev

omit [Add σ] in
theorem not_fatal_of_retryable {c : Cmd σ} {context : String} {e : RedisError}
    (h : (RenewError.redis context e).isRedisIoError = true) :
    ¬ hb.Fatal ⟨.redis c, .error e⟩ := by
  have hne : ¬ (e.is_io_error || e.is_connection_dropped) = false := by
    rw [Bool.not_eq_false]
    exact h
  cases c <;> exact hne

/-- A renewal that fails leaves nothing fatal behind if it may be tried again. -/
theorem renew_guarded (ht : hb.Unharmed t) :
    FollowsTo hb.Guard record
      (fun t r => (∀ e, r = .error e → e.isRedisIoError = true) → hb.Unharmed t) t hb.renew := by
  simp only [renew, perform_bind]
  refine ⟨⟨ht, .inl rfl⟩, fun owner => ?_⟩
  cases owner with
  | error e => exact fun h => ht.record (not_fatal_of_retryable (h _ rfl))
  | ok owner =>
    cases owner with
    | none => exact fun h => absurd (h _ rfl) (by simp [RenewError.isRedisIoError])
    | some o =>
      by_cases ho : o = hb.instance_id
      · subst ho
        have hown : hb.Unharmed (record t ⟨.redis (.get (.owner (slotStr hb.slot))),
          .ok (some hb.instance_id)⟩) := ht.record fun h => h rfl
        simp only [if_true]
        refine ⟨⟨hown, trivial⟩, fun now =>
          ⟨⟨hown.record id, .inr ⟨t, now, ?_, rfl⟩⟩, fun done => ?_⟩⟩
        · simp [record]
        · cases done with
          | error e => exact fun h => (hown.record id).record (not_fatal_of_retryable (h _ rfl))
          | ok _ => exact fun _ => (hown.record id).record id
      · simp only [if_neg ho]
        exact fun h => absurd (h _ rfl) (by simp [RenewError.isRedisIoError])

theorem renewLoop_guarded (left : ℕ) (ht : hb.Unharmed t) :
    FollowsTo hb.Guard record (fun t r => r = .ok () → hb.Unharmed t) t (hb.renewLoop left) := by
  induction left generalizing t with
  | zero =>
    refine (renew_guarded ht).bind fun t r hr => ?_
    cases r with
    | ok _ => exact fun _ => hr (by simp)
    | error e => exact fun h => by cases h
  | succ left ih =>
    refine (renew_guarded ht).bind fun t r hr => ?_
    cases r with
    | ok _ => exact fun _ => hr (by simp)
    | error e =>
      by_cases he : e.isRedisIoError = true
      · have ht' := hr (by simp [he])
        simp only [he, if_true]
        exact ⟨⟨ht', trivial⟩, fun _ => ⟨⟨ht'.record id, trivial⟩, fun _ =>
          ih ((ht'.record id).record id)⟩⟩
      · simp only [he]
        exact fun h => by cases h

theorem loop_guarded (rounds : ℕ) (ht : hb.Unharmed t) :
    Follows hb.Guard record t (hb.loop rounds) := by
  induction rounds generalizing t with
  | zero => trivial
  | succ rounds ih =>
    refine (renewLoop_guarded hb.retry_attempts ht).follows fun t r hr => ?_
    cases r with
    | error e => trivial
    | ok _ =>
      have ht' := hr rfl
      refine ⟨⟨ht', trivial⟩, fun sigterm => ?_⟩
      cases sigterm with
      | true => trivial
      | false => exact ih (ht'.record id)

theorem run_guarded (rounds : ℕ) : Follows hb.Guard record [] (hb.run rounds) := by
  have hnil : hb.Unharmed [] := by simp [Unharmed]
  refine ⟨⟨hnil, trivial⟩, fun registered => ?_⟩
  cases registered with
  | false => trivial
  | true =>
    refine ⟨⟨hnil.record id, trivial⟩, fun connected => ?_⟩
    cases connected with
    | false => trivial
    | true => exact loop_guarded rounds ((hnil.record id).record id)

end Guarded

/-- Whatever the replies, the heartbeat writes only the lease of its own slot, each time right after
it read that its instance is the owner, and does nothing more after a reply that the slot is not its
own or an error other than a broken connection. -/
theorem heartbeat_guarded (rounds : ℕ) {t : List (Event (ClientOp σ) ClientOp.Reply)}
    {op : ClientOp σ} (h : Performs (hb.run rounds) t op) :
    (∀ ev ∈ t, ¬ hb.Fatal ev) ∧ hb.Guards t op := by
  have hguard := (run_guarded rounds).performs h
  rwa [foldl_record, List.nil_append] at hguard

/-- A heartbeat with the defaults of the command line. -/
def ofInstance (slot : ℕ) (instance_id : String) : Heartbeat ℕ :=
  ⟨slot, instance_id, 90000, 30, 5, 6000⟩

theorem heartbeat_guarded_renewal :
    let t : List (Event (ClientOp ℕ) ClientOp.Reply) := [⟨.signal, true⟩, ⟨.connect, true⟩,
      ⟨.redis (.get (.owner (slotStr 3))), .ok (some "i-1")⟩, ⟨.nowMs, 1000⟩]
    (∀ ev ∈ t, ¬ (ofInstance 3 "i-1").Fatal ev) ∧
      (ofInstance 3 "i-1").Guards t (.redis (.zadd .leases (slotStr 3) (1000 + 90000))) := by
  refine heartbeat_guarded (ofInstance 3 "i-1") 1 ?_
  simp [run, loop, renewLoop, renew, ofInstance, performs_call]

/-- How the lease stands after some events, each of which takes up to `δ` longer than it is meant
to: bounds of the time since the clock was read last, and since the reading that the lease was
renewed with, and the failed commands since then. -/
structure Watch where
  sinceRead : ℕ
  sinceRenewal : ℕ
  failures : ℕ

namespace Watch

def start : Watch := ⟨0, 0, 0⟩

def wait (w : Watch) (ms : ℕ) : Watch := ⟨w.sinceRead + ms, w.sinceRenewal + ms, w.failures⟩

def next (δ : ℕ) (w : Watch) : Event (ClientOp σ) ClientOp.Reply → Watch
  | ⟨.nowMs, _⟩ => { w.wait δ with sinceRead := δ }
  | ⟨.redis (.zadd .leases _ _), .ok _⟩ => ⟨w.sinceRead + δ, w.sinceRead + δ, 0⟩
  | ⟨.redis _, .error _⟩ => { w.wait δ with failures := w.failures + 1 }
  | ⟨op, _⟩ => w.wait (op.nominal + δ)

end Watch

/-- The longest time between two renewals. -/
def longest (δ : ℕ) : ℕ :=
  hb.interval * 1000 + hb.retry_attempts * (hb.retry_delay_ms + 5 * δ) + 6 * δ

section Watched

variable {δ limit : ℕ} {w : Watch}

/-- When the operation has ended, the time since the renewal is still below the limit. -/
def Watch.Below (δ limit : ℕ) (w : Watch) (op : ClientOp σ) : Prop :=
  w.sinceRenewal + op.nominal + δ ≤ limit

variable {hb}

theorem renew_watched (hw : w.sinceRenewal + 3 * δ ≤ limit) :
    FollowsTo (Watch.Below δ limit) (Watch.next δ) (fun w' r =>
      match r with
      | .ok _ => w'.sinceRenewal = 2 * δ ∧ w'.failures = 0
      | .error e => e.isRedisIoError = true →
        w'.sinceRenewal ≤ w.sinceRenewal + 3 * δ ∧ w'.failures = w.failures + 1) w hb.renew := by
  simp only [renew, perform_bind]
  refine ⟨?_, fun owner => ?_⟩
  · simp only [Watch.Below, ClientOp.nominal]
    omega
  cases owner with
  | error e =>
    refine fun _ => ⟨?_, rfl⟩
    show w.sinceRenewal + δ ≤ _
    omega
  | ok owner =>
    cases owner with
    | none => exact fun h => absurd h (by simp [RenewError.isRedisIoError])
    | some o =>
      by_cases ho : o = hb.instance_id
      · simp only [ho, if_true]
        refine ⟨?_, fun now => ⟨?_, fun done => ?_⟩⟩
        · simp only [Watch.Below, Watch.next, Watch.wait, ClientOp.nominal]
          omega
        · simp only [Watch.Below, Watch.next, Watch.wait, ClientOp.nominal]
          omega
        · cases done with
          | error e =>
            refine fun _ => ⟨?_, rfl⟩
            show w.sinceRenewal + (0 + δ) + δ + δ ≤ _
            omega
          | ok _ =>
            refine ⟨?_, rfl⟩
            show δ + δ = 2 * δ
            omega
      · simp only [if_neg ho]
        exact fun h => absurd h (by simp [RenewError.isRedisIoError])

/-- The loop gives up on a broken connection only when it has no attempts left. -/
theorem renewLoop_watched (left : ℕ) (hfailures : w.failures + left = hb.retry_attempts)
    (hw : w.sinceRenewal + left * (hb.retry_delay_ms + 5 * δ) + 3 * δ ≤ limit) :
    FollowsTo (Watch.Below δ limit) (Watch.next δ) (fun w' r =>
      match r with
      | .ok _ => w'.sinceRenewal = 2 * δ ∧ w'.failures = 0
      | .error e => ∃ n cause, e = .renew n cause ∧ (cause.isRedisIoError = true →
        n = hb.retry_attempts ∧ w'.failures = hb.retry_attempts + 1)) w (hb.renewLoop left) := by
  induction left generalizing w with
  | zero =>
    refine FollowsTo.bind (renew_watched (by omega)) fun w' r hr => ?_
    cases r with
    | ok _ => exact hr
    | error e => exact ⟨_, e, rfl, fun he => ⟨rfl, by have := (hr he).2; omega⟩⟩
  | succ left ih =>
    rw [Nat.succ_mul] at hw
    refine FollowsTo.bind (renew_watched (by omega)) fun w' r hr => ?_
    cases r with
    | ok _ => exact hr
    | error e =>
      by_cases he : e.isRedisIoError = true
      · obtain ⟨htime, hcount⟩ := hr he
        simp only [he, if_true]
        refine ⟨?_, fun _ => ⟨?_, fun _ => ih ?_ ?_⟩⟩
        · simp only [Watch.Below, ClientOp.nominal]
          omega
        · simp only [Watch.Below, Watch.next, Watch.wait, ClientOp.nominal]
          omega
        · simp only [Watch.next, Watch.wait]
          omega
        · simp only [Watch.next, Watch.wait, ClientOp.nominal]
          omega
      · simp only [he]
        exact ⟨_, e, rfl, fun h => absurd h he⟩

theorem loop_watched (rounds : ℕ) (hfailures : w.failures = 0)
    (hw : w.sinceRenewal ≤ hb.interval * 1000 + 3 * δ) :
    FollowsTo (Watch.Below δ (hb.longest δ)) (Watch.next δ) (fun w' r =>
      ∀ n cause, r = some (.error (.renew n cause)) → cause.isRedisIoError = true →
        n = hb.retry_attempts ∧ w'.failures = hb.retry_attempts + 1) w (hb.loop rounds) := by
  induction rounds generalizing w with
  | zero => exact fun n cause h => by cases h
  | succ rounds ih =>
    have hlimit : hb.longest δ = hb.interval * 1000 +
      hb.retry_attempts * (hb.retry_delay_ms + 5 * δ) + 6 * δ := rfl
    refine (renewLoop_watched hb.retry_attempts (by omega) (by omega)).bind fun w' r hr => ?_
    cases r with
    | error e =>
      obtain ⟨n, cause, rfl, hgive⟩ := hr
      rintro n' cause' heq
      cases heq
      exact hgive
    | ok _ =>
      obtain ⟨htime, hcount⟩ := hr
      refine ⟨?_, fun sigterm => ?_⟩
      · simp only [Watch.Below, ClientOp.nominal]
        omega
      · cases sigterm with
        | true => exact fun n cause h => by cases h
        | false =>
          refine ih ?_ ?_
          · simpa only [Watch.next, Watch.wait] using hcount
          · simp only [Watch.next, Watch.wait, ClientOp.nominal]
            omega

theorem run_watched (hb : Heartbeat σ) (δ rounds : ℕ) :
    FollowsTo (Watch.Below δ (hb.longest δ)) (Watch.next δ) (fun w' r =>
      ∀ n cause, r = some (.error (.renew n cause)) → cause.isRedisIoError = true →
        n = hb.retry_attempts ∧ w'.failures = hb.retry_attempts + 1) .start (hb.run rounds) := by
  have hlimit : hb.longest δ = hb.interval * 1000 +
    hb.retry_attempts * (hb.retry_delay_ms + 5 * δ) + 6 * δ := rfl
  simp only [run, perform_bind]
  refine ⟨?_, fun registered => ?_⟩
  · simp only [Watch.Below, ClientOp.nominal, Watch.start]
    omega
  cases registered with
  | false => exact fun n cause h => by cases h
  | true =>
    refine ⟨?_, fun connected => ?_⟩
    · simp only [Watch.Below, Watch.next, Watch.wait, ClientOp.nominal, Watch.start]
      omega
    · cases connected with
      | false => exact fun n cause h => by cases h
      | true =>
        refine loop_watched rounds rfl ?_
        simp only [Watch.next, Watch.wait, ClientOp.nominal, Watch.start]
        omega

end Watched

/-- Whatever the replies, when every operation takes at most `δ` longer than it is meant to, at no
time more than `longest` has passed since the clock reading that the lease was last renewed with, or
since the start.  The heartbeat gives up on a broken connection only after one failed renewal more
than it has attempts to reconnect. -/
theorem renewed_in_time (δ rounds : ℕ) :
    (∀ t op, Performs (hb.run rounds) t op →
      (t.foldl (Watch.next δ) .start).sinceRenewal + op.nominal + δ ≤ hb.longest δ) ∧
    ∀ t n cause, Exec (hb.run rounds) t (some (.error (.renew n cause))) →
      cause.isRedisIoError = true → n = hb.retry_attempts ∧
        (t.foldl (Watch.next δ) .start).failures = hb.retry_attempts + 1 := by
  constructor
  · intro t op h
    exact (run_watched hb _ rounds).toFollows.performs h
  · intro t n cause h
    exact (run_watched hb _ rounds).exec h n cause rfl

end Heartbeat

end Aerosuite.Pool
