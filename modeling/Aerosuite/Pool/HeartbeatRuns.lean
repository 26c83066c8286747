import Aerosuite.Pool.Heartbeat
import Aerosuite.Pool.ReleaseRuns

/-! Runs of one heartbeat next to other commands of `aeroslot`, on a Redis that may be out of reach
at any time.  While the heartbeat is not delayed for long, its lease does not expire, so no sweep
takes the slot away and no claim gets it. -/

namespace Aerosuite.Pool

open Program

/-- What becomes of an operation: whether a command fails, and then whether it took effect, whether
a connection or a signal handler is set up or a SIGTERM comes, and how much time passes until the
next operation of anyone. -/
structure Fate where
  failure : Option (Bool × RedisError)
  success : Bool
  takes : ℕ

/-- Redis and the clock, which all clients share. -/
structure Net where
  db : Redis ℕ
  time : ℕ
  count : ℕ
  fates : ℕ → Fate

namespace Net

def fate (s : Net) : Fate := s.fates s.count

/-- The net after an operation that leaves the database `db`. -/
def pass (s : Net) (db : Redis ℕ) : Net :=
  { s with db := db, time := s.time + s.fate.takes, count := s.count + 1 }

def answer : (op : ClientOp ℕ) → Net → op.Reply × Net
  | .redis c, s =>
    match s.fate.failure with
    | none => (.ok (exec c s.db).1, s.pass (exec c s.db).2)
    | some (done, e) => (.error e, s.pass (if done then (exec c s.db).2 else s.db))
  | .nowMs, s => (s.time, s.pass s.db)
  | .signal, s | .connect, s | .select _, s => (s.fate.success, s.pass s.db)
  | .sleep _, s => ((), s.pass s.db)

@[simp] theorem db_pass (s : Net) (db : Redis ℕ) : (s.pass db).db = db := rfl

theorem time_le_pass (s : Net) (db : Redis ℕ) : s.time ≤ (s.pass db).time := Nat.le_add_right _ _

theorem time_le_answer (op : ClientOp ℕ) (s : Net) : s.time ≤ (answer op s).2.time := by
  cases op with
  | redis c =>
    rw [answer]
    split <;> exact s.time_le_pass _
  | nowMs | signal | connect | sleep _ | select _ => exact s.time_le_pass _

/-- A command leaves the database as it is or does its work, and replies what it did if it replies
at all. -/
theorem answer_redis (c : Cmd ℕ) (s : Net) :
    ((answer (.redis c) s).2.db = s.db ∨ (answer (.redis c) s).2.db = (exec c s.db).2) ∧
      ∀ r, (answer (.redis c) s).1 = .ok r →
        r = (exec c s.db).1 ∧ (answer (.redis c) s).2.db = (exec c s.db).2 := by
  rw [answer]
  cases hfate : s.fate.failure with
  | none => exact ⟨.inr rfl, fun r hr => ⟨(Except.ok.inj hr).symm, rfl⟩⟩
  | some failure =>
    obtain ⟨done, e⟩ := failure
    refine ⟨?_, fun r hr => by cases hr⟩
    cases done with
    | false => exact .inl rfl
    | true => exact .inr rfl

/-- While nothing fails, a renewal of the heartbeat is the command `renew` at the clock reading
after the owner was read. -/
theorem run_renew (hb : Heartbeat ℕ) (s : Net) (h : ∀ n, (s.fates n).failure = none) :
    (hb.renew.run answer s).2.db =
        ((cmdRenew hb.slot hb.instance_id (s.pass s.db).time hb.ttl_ms).run exec s.db).2 ∧
      ((hb.renew.run answer s).1 = .ok () ↔
        ((cmdRenew hb.slot hb.instance_id (s.pass s.db).time hb.ttl_ms).run exec s.db).1 =
          .ok ()) := by
  have hfate : ∀ s' : Net, s'.fates = s.fates → s'.fate.failure = none := fun s' hs => by
    rw [fate, hs]
    exact h _
  have hanswer : ∀ (c : Cmd ℕ) (s' : Net), s'.fates = s.fates →
      answer (.redis c) s' = (.ok (exec c s'.db).1, s'.pass (exec c s'.db).2) := fun c s' hs => by
    rw [answer, hfate s' hs]
  simp only [Heartbeat.renew, cmdRenew, perform_bind, run_call, hanswer _ s rfl, exec]
  cases howner : s.db.strings (.owner (slotStr hb.slot)) with
  | none => simp
  | some o =>
    by_cases ho : o = hb.instance_id
    · have hclock : ∀ s' : Net, answer .nowMs s' = (s'.time, s'.pass s'.db) := fun _ => rfl
      have hfates : ((s.pass s.db).pass s.db).fates = s.fates := rfl
      simp only [ho, if_true, run_call, hclock, db_pass]
      rw [hanswer _ _ hfates]
      exact ⟨rfl, by simp⟩
    · simp [ho]

end Net

/-- A command of `aeroslot` on a connection that may fail: it stops at the first command that
does. -/
def onConnection {σ α : Type} : RedisProgram σ α → ClientProgram σ (Except RedisError α)
  | .ret a => .ret (.ok a)
  | .call c k => .call (.redis c) fun reply =>
    match reply with
    | .error e => .ret (.error e)
    | .ok r => onConnection (k r)

section Threads

variable {ι : Type} [DecidableEq ι] (hb : Heartbeat ℕ) (rounds : ℕ) (me : ι)
  (cmds : ι → NativeCmd ℕ)

abbrev ClientStep (ι : Type) := Step ι (ClientOp ℕ) ClientOp.Reply Net

/-- When the heartbeat is done with its latest operation, which takes up to `δ` longer than it is
meant to. -/
def due (δ start : ℕ) : List (ClientStep ι) → ℕ
  | [] => start
  | st :: hist =>
    if st.who = me then st.before.time + st.event.op.nominal + δ else due δ start hist

/-- At no time of the run until `now` does the heartbeat wait for longer. -/
def Punctual (δ start : ℕ) : List (ClientStep ι) → ℕ → Prop
  | [], now => now ≤ start
  | st :: hist, now => now ≤ due me δ start (st :: hist) ∧ Punctual δ start hist st.before.time

/-- A claim compares the leases with a clock reading that is not ahead of time. -/
def Reads (st : ClientStep ι) : Prop :=
  match st.event.op with
  | .redis (.zrangebyscore .leases now) => now ≤ st.before.time
  | _ => True

instance decidablePunctual (δ start : ℕ) : (hist : List (ClientStep ι)) → (now : ℕ) →
    Decidable (Punctual me δ start hist now)
  | [], _ => inferInstanceAs (Decidable (_ ≤ _))
  | _ :: hist, _ =>
    have := decidablePunctual δ start hist
    inferInstanceAs (Decidable (_ ∧ _))

instance (st : ClientStep ι) : Decidable (Reads st) := by
  unfold Reads
  split <;> infer_instance

end Threads

section Spares

variable (slot instance_id : String)

/-- What a command can reply while the instance holds the slot and its lease has not expired. -/
def Plausible : (c : Cmd ℕ) → c.Reply → Prop
  | .zscore .leases s, score => s = slot → score ≠ none
  | .zrangebyscore .leases _, expired => slot ∉ expired
  | .zpopmin .available, popped => ∀ since, popped ≠ some (slot, since)
  | .get (.owner s), owner => s = slot → owner = some instance_id
  | _, _ => True

/-- A command that does not touch the slot. -/
def Spares : Cmd ℕ → Prop
  | .zadd _ s _ | .zaddNX _ s _ | .zrem .leases s | .set (.owner s) _ | .del (.owner s) => s ≠ slot
  | .zpopmin .leases => False
  | _ => True

variable {slot instance_id}

/-- A command that keeps off the slot, given plausible replies. -/
abbrev KeepsOff {α : Type} (slot instance_id : String) (p : RedisProgram ℕ α) : Prop :=
  Within (Plausible slot instance_id) (fun (_ : Unit) => Spares slot) (fun _ _ => ())
    (fun _ _ => True) () p

end Spares

section Connection

variable {slot instance_id : String}

/-- What an operation can reply while the instance holds the slot. -/
def PlausibleOp (slot instance_id : String) : (op : ClientOp ℕ) → op.Reply → Prop
  | .redis c, reply => ∀ r, reply = .ok r → Plausible slot instance_id c r
  | _, _ => True

theorem KeepsOff.connected {α : Type} {p : RedisProgram ℕ α} (hp : KeepsOff slot instance_id p)
    (t : List (Event (ClientOp ℕ) ClientOp.Reply)) :
    Within (PlausibleOp slot instance_id) (fun _ op => ∃ c, op = .redis c ∧ Spares slot c) record
      (fun _ _ => True) t (onConnection p) := by
  induction p generalizing t with
  | ret a => trivial
  | call c k ih =>
    rw [onConnection]
    refine ⟨⟨c, rfl, hp.1⟩, fun reply hreply => ?_⟩
    cases reply with
    | error e => trivial
    | ok r => exact ih r (hp.2 r (hreply r rfl)) _

variable {hb : Heartbeat ℕ} {next : List (Event (ClientOp ℕ) ClientOp.Reply) →
  Event (ClientOp ℕ) ClientOp.Reply → List (Event (ClientOp ℕ) ClientOp.Reply)}
  (t : List (Event (ClientOp ℕ) ClientOp.Reply))

end Connection

section Held

variable {slot instance_id : String} {db : Redis ℕ} {expiry : ℕ}

theorem Redis.At.spared (h : db.At slot none (some expiry) (some instance_id)) {c : Cmd ℕ}
    (hc : Spares slot c) : (exec c db).2.At slot none (some expiry) (some instance_id) := by
  obtain ⟨havailable, hlease, howner⟩ := h
  cases c with
  | zscore key s | zrangebyscore key x | zrangeWithScores key | get key | publish msg =>
    exact ⟨havailable, hlease, howner⟩
  | zadd key s x => exact ⟨by simp [exec, hc.symm, havailable], by
    simp [exec, hc.symm, hlease], howner⟩
  | zaddNX key s x =>
    rw [exec]
    split
    · exact ⟨by simp [hc.symm, havailable], by simp [hc.symm, hlease], howner⟩
    · exact ⟨havailable, hlease, howner⟩
  | zrem key s =>
    cases key with
    | available => exact ⟨by simp [exec, havailable], by simp [exec, hlease], howner⟩
    | leases => exact ⟨by simp [exec, havailable], by simp [exec, hc.symm, hlease], howner⟩
  | zpopmin key =>
    cases key with
    | leases => exact hc.elim
    | available =>
      cases hleast : (db.sets .available).least with
      | none => simpa [exec, hleast] using ⟨havailable, hlease, howner⟩
      | some entry =>
        simp only [exec, hleast]
        exact ⟨by simp [havailable], by simp [hlease], howner⟩
  | set key value =>
    cases key with
    | owner s => exact ⟨havailable, hlease, by simp [exec, hc.symm, howner]⟩
    | backendWeight ip | backendWeightsTs =>
      exact ⟨havailable, hlease, by simpa [exec, Redis.owner, Redis.set] using howner⟩
  | del key =>
    cases key with
    | owner s => exact ⟨havailable, hlease, by simp [exec, hc.symm, howner]⟩
    | backendWeight ip | backendWeightsTs =>
      exact ⟨havailable, hlease, by simpa [exec, Redis.owner, Redis.del] using howner⟩

theorem Redis.At.plausible (h : db.At slot none (some expiry) (some instance_id)) {c : Cmd ℕ}
    (hnow : ∀ now, c = .zrangebyscore .leases now → now < expiry) :
    Plausible slot instance_id c (exec c db).1 := by
  obtain ⟨havailable, hlease, howner⟩ := h
  cases c with
  | zscore key s =>
    cases key with
    | available => trivial
    | leases =>
      rintro rfl
      simp [exec, hlease]
  | zrangebyscore key now =>
    cases key with
    | available => trivial
    | leases =>
      intro hmem
      obtain ⟨x, hx, hle⟩ := SortedSet.mem_upTo.mp hmem
      obtain rfl := Option.some.inj (hx.symm.trans hlease)
      exact absurd (hnow now rfl) (not_lt.mpr hle)
  | zpopmin key =>
    cases key with
    | leases => trivial
    | available =>
      intro since hpop
      cases havailable.symm.trans (score_of_zpopmin hpop)
  | get key =>
    cases key with
    | owner s =>
      rintro rfl
      exact howner
    | backendWeight ip | backendWeightsTs => trivial
  | zadd key s x | zaddNX key s x | zrem key s | zrangeWithScores key | set key value | del key
  | publish msg => trivial

end Held

/-- The latest clock reading of the heartbeat, and the one that the lease was last renewed with. -/
structure Readings where
  read : ℕ
  renewed : ℕ

def Readings.next (rd : Readings) : Event (ClientOp ℕ) ClientOp.Reply → Readings
  | ⟨.nowMs, now⟩ => { rd with read := now }
  | ⟨.redis (.zadd .leases _ _), .ok _⟩ => { rd with renewed := rd.read }
  | _ => rd

section Kept

variable {ι : Type} [DecidableEq ι] (hb : Heartbeat ℕ) (me : ι) (δ start : ℕ)

/-- The events of the heartbeat in a history, oldest first. -/
def trace (hist : List (ClientStep ι)) : List (Event (ClientOp ℕ) ClientOp.Reply) :=
  protocolState (fun _ => record) (fun _ => []) hist me

def readings (hist : List (ClientStep ι)) : Readings :=
  (trace me hist).foldl Readings.next ⟨start, start⟩

def watch (hist : List (ClientStep ι)) : Heartbeat.Watch :=
  (trace me hist).foldl (Heartbeat.Watch.next δ) .start

/-- The instance holds the slot, and the heartbeat will be done with its latest operation before the
lease expires. -/
structure Kept (hist : List (ClientStep ι)) (s : Net) : Prop where
  held : ∃ expiry, s.db.At (slotStr hb.slot) none (some expiry) (some hb.instance_id) ∧
    (readings me start hist).renewed + hb.longest δ < expiry
  ordered : (readings me start hist).renewed ≤ (readings me start hist).read
  past : (readings me start hist).read ≤ s.time
  sinceRenewal : due me δ start hist ≤ (readings me start hist).renewed +
    (watch me δ hist).sinceRenewal
  sinceRead : due me δ start hist ≤ (readings me start hist).read + (watch me δ hist).sinceRead
  watched : (watch me δ hist).sinceRead ≤ (watch me δ hist).sinceRenewal
  limit : (watch me δ hist).sinceRenewal ≤ hb.longest δ
  unpopped : ∀ st ∈ hist, ∀ since,
    st.event ≠ ⟨.redis (.zpopmin .available), .ok (some (slotStr hb.slot, since))⟩

variable {hb me δ start} {hist : List (ClientStep ι)} {s s' : Net}
  {ev : Event (ClientOp ℕ) ClientOp.Reply}

theorem trace_self : trace me (⟨me, ev, s⟩ :: hist) = trace me hist ++ [ev] := if_pos rfl

theorem trace_other {i : ι} (hi : i ≠ me) : trace me (⟨i, ev, s⟩ :: hist) = trace me hist :=
  if_neg hi

theorem readings_self :
    readings me start (⟨me, ev, s⟩ :: hist) = (readings me start hist).next ev := by
  rw [readings, trace_self, List.foldl_append]
  rfl

theorem watch_self : watch me δ (⟨me, ev, s⟩ :: hist) = (watch me δ hist).next δ ev := by
  rw [watch, trace_self, List.foldl_append]
  rfl

theorem due_self :
    due me δ start (⟨me, ev, s⟩ :: hist) = s.time + ev.op.nominal + δ := if_pos rfl

theorem due_other {i : ι} (hi : i ≠ me) :
    due me δ start (⟨i, ev, s⟩ :: hist) = due me δ start hist := if_neg hi

theorem Kept.unexpired (inv : Kept hb me δ start hist s) (hpunctual : s.time ≤ due me δ start hist)
    {expiry : ℕ} (hexpiry : (readings me start hist).renewed + hb.longest δ < expiry) :
    s.time < expiry := by
  have hsince := inv.sinceRenewal
  have hlimit := inv.limit
  omega

/-- A step of another client that leaves the slot alone. -/
theorem Kept.other (inv : Kept hb me δ start hist s) {i : ι} (hi : i ≠ me)
    (hheld : ∀ expiry, s.db.At (slotStr hb.slot) none (some expiry) (some hb.instance_id) →
      s'.db.At (slotStr hb.slot) none (some expiry) (some hb.instance_id))
    (htime : s.time ≤ s'.time)
    (hpop : ∀ since, ev ≠ ⟨.redis (.zpopmin .available), .ok (some (slotStr hb.slot, since))⟩) :
    Kept hb me δ start (⟨i, ev, s⟩ :: hist) s' := by
  have hreadings : readings me start (⟨i, ev, s⟩ :: hist) = readings me start hist := by
    rw [readings, trace_other hi, ← readings]
  have hwatch : watch me δ (⟨i, ev, s⟩ :: hist) = watch me δ hist := by
    rw [watch, trace_other hi, ← watch]
  obtain ⟨expiry, hat, hexpiry⟩ := inv.held
  constructor
  case unpopped => exact List.forall_mem_cons.mpr ⟨hpop, inv.unpopped⟩
  all_goals simp only [hreadings, hwatch, due_other hi]
  · exact ⟨expiry, hheld expiry hat, hexpiry⟩
  · exact inv.ordered
  · exact inv.past.trans htime
  · exact inv.sinceRenewal
  · exact inv.sinceRead
  · exact inv.watched
  · exact inv.limit

/-- A step of the heartbeat that neither reads the clock nor renews the lease for sure. -/
theorem Kept.wait (inv : Kept hb me δ start hist s)
    (hpunctual : s.time ≤ due me δ start hist)
    (hreadings : (readings me start hist).next ev = readings me start hist)
    (hread : ((watch me δ hist).next δ ev).sinceRead =
      (watch me δ hist).sinceRead + (ev.op.nominal + δ))
    (hrenewal : ((watch me δ hist).next δ ev).sinceRenewal =
      (watch me δ hist).sinceRenewal + (ev.op.nominal + δ))
    (hbelow : (watch me δ hist).Below δ (hb.longest δ) ev.op)
    (hheld : ∃ expiry, s'.db.At (slotStr hb.slot) none (some expiry) (some hb.instance_id) ∧
      (readings me start hist).renewed + hb.longest δ < expiry)
    (htime : s.time ≤ s'.time)
    (hpop : ∀ since, ev ≠ ⟨.redis (.zpopmin .available), .ok (some (slotStr hb.slot, since))⟩) :
    Kept hb me δ start (⟨me, ev, s⟩ :: hist) s' := by
  have hsince := inv.sinceRenewal
  have hsinceRead := inv.sinceRead
  have hwatched := inv.watched
  simp only [Heartbeat.Watch.Below] at hbelow
  constructor
  case unpopped => exact List.forall_mem_cons.mpr ⟨hpop, inv.unpopped⟩
  all_goals simp only [readings_self, watch_self, due_self, hreadings, hread, hrenewal]
  · exact hheld
  · exact inv.ordered
  · exact inv.past.trans htime
  · omega
  · omega
  · omega
  · omega

/-- The heartbeat reads the clock. -/
theorem Kept.nowMs (inv : Kept hb me δ start hist s) (hpunctual : s.time ≤ due me δ start hist)
    (hbelow : (watch me δ hist).Below δ (hb.longest δ) (.nowMs : ClientOp ℕ)) :
    Kept hb me δ start (⟨me, ⟨.nowMs, s.time⟩, s⟩ :: hist) (s.pass s.db) := by
  have hsince := inv.sinceRenewal
  have hordered := inv.ordered
  have hpast := inv.past
  simp only [Heartbeat.Watch.Below, ClientOp.nominal] at hbelow
  constructor
  case unpopped => exact List.forall_mem_cons.mpr ⟨by rintro _ ⟨⟩, inv.unpopped⟩
  all_goals simp only [readings_self, watch_self, due_self, Readings.next,
    Heartbeat.Watch.next, Heartbeat.Watch.wait, ClientOp.nominal, Net.db_pass]
  · exact inv.held
  · omega
  · exact s.time_le_pass _
  · omega
  · omega
  · omega
  · omega

/-- The heartbeat renews the lease. -/
theorem Kept.renewal (inv : Kept hb me δ start hist s)
    (hpunctual : s.time ≤ due me δ start hist) (hlong : hb.longest δ < hb.ttl_ms)
    {slot : String}
    (hbelow : (watch me δ hist).Below δ (hb.longest δ) (.redis (.zadd .leases slot 0)))
    {expiry : ℕ} (hexpiry : expiry = (readings me start hist).read + hb.ttl_ms)
    (hheld : s'.db.At (slotStr hb.slot) none (some expiry) (some hb.instance_id))
    (htime : s.time ≤ s'.time) :
    Kept hb me δ start (⟨me, ⟨.redis (.zadd .leases slot expiry), .ok ()⟩, s⟩ :: hist) s' := by
  have hsinceRead := inv.sinceRead
  have hwatched := inv.watched
  have hpast := inv.past
  simp only [Heartbeat.Watch.Below, ClientOp.nominal] at hbelow
  constructor
  case unpopped => exact List.forall_mem_cons.mpr ⟨by rintro _ ⟨⟩, inv.unpopped⟩
  all_goals simp only [readings_self, watch_self, due_self, Readings.next,
    Heartbeat.Watch.next, ClientOp.nominal]
  · exact ⟨expiry, hheld, by omega⟩
  · exact le_rfl
  · omega
  · omega
  · omega
  · exact le_rfl
  · omega

theorem Punctual.le_due {now : ℕ} (h : Punctual me δ start hist now) :
    now ≤ due me δ start hist := by
  cases hist with
  | nil => exact h
  | cons st hist => exact h.1

theorem Redis.At.extended {db : Redis ℕ} {slot instance_id : String} {old : ℕ}
    (h : db.At slot none (some old) (some instance_id)) (expiry : ℕ) :
    (db.zadd .leases slot expiry).At slot none (some expiry) (some instance_id) :=
  ⟨by simpa using h.available, by simp, h.owner⟩

/-- The heartbeat reads the owner of its slot. -/
theorem Kept.ask (inv : Kept hb me δ start hist s) (hpunctual : s.time ≤ due me δ start hist)
    {slot : String}
    (hbelow : (watch me δ hist).Below δ (hb.longest δ)
      (.redis (.get (.owner slot)) : ClientOp ℕ)) : Kept hb me δ start
      (⟨me, ⟨.redis (.get (.owner slot)), (Net.answer (.redis (.get (.owner slot))) s).1⟩, s⟩ ::
        hist)
      (Net.answer (.redis (.get (.owner slot))) s).2 := by
  have htime := Net.time_le_answer (.redis (.get (.owner slot))) s
  have hsame : (Net.answer (.redis (.get (.owner slot))) s).2.db = s.db := by
    rcases (Net.answer_redis (.get (.owner slot)) s).1 with hdb | hdb <;> exact hdb
  have hheld := inv.held
  rw [← hsame] at hheld
  generalize Net.answer (.redis (.get (.owner slot))) s = answer at *
  obtain ⟨reply, s'⟩ := answer
  cases reply with
  | error e =>
    refine inv.wait hpunctual rfl ?_ ?_ hbelow hheld htime (by rintro _ ⟨⟩) <;>
      simp [Heartbeat.Watch.next, Heartbeat.Watch.wait, ClientOp.nominal]
  | ok owner => exact inv.wait hpunctual rfl rfl rfl hbelow hheld htime (by rintro _ ⟨⟩)

/-- The heartbeat writes the lease of its slot. -/
theorem Kept.write (inv : Kept hb me δ start hist s) (hpunctual : s.time ≤ due me δ start hist)
    (hlong : hb.longest δ < hb.ttl_ms) {expiry : ℕ}
    (hexpiry : expiry = (readings me start hist).read + hb.ttl_ms)
    (hbelow : (watch me δ hist).Below δ (hb.longest δ)
      (.redis (.zadd .leases (slotStr hb.slot) expiry))) :
    Kept hb me δ start
      (⟨me, ⟨.redis (.zadd .leases (slotStr hb.slot) expiry),
        (Net.answer (.redis (.zadd .leases (slotStr hb.slot) expiry)) s).1⟩, s⟩ :: hist)
      (Net.answer (.redis (.zadd .leases (slotStr hb.slot) expiry)) s).2 := by
  have htime := Net.time_le_answer (.redis (.zadd .leases (slotStr hb.slot) expiry)) s
  obtain ⟨hdb, hok⟩ := Net.answer_redis (.zadd .leases (slotStr hb.slot) expiry) s
  obtain ⟨old, hat, hold⟩ := inv.held
  have hextended : (exec (.zadd .leases (slotStr hb.slot) expiry) s.db).2.At (slotStr hb.slot) none
      (some expiry) (some hb.instance_id) := hat.extended expiry
  have hordered := inv.ordered
  generalize Net.answer (.redis (.zadd .leases (slotStr hb.slot) expiry)) s = answer at *
  obtain ⟨reply, s'⟩ := answer
  cases reply with
  | error e =>
    -- The renewal may have taken effect all the same.
    have hheld : ∃ expiry, s'.db.At (slotStr hb.slot) none (some expiry) (some hb.instance_id) ∧
        (readings me start hist).renewed + hb.longest δ < expiry := by
      rcases hdb with hdb | hdb
      · exact ⟨old, hdb ▸ hat, hold⟩
      · exact ⟨expiry, hdb ▸ hextended, by omega⟩
    refine inv.wait hpunctual rfl ?_ ?_ hbelow hheld htime nofun <;>
      simp [Heartbeat.Watch.next, Heartbeat.Watch.wait, ClientOp.nominal]
  | ok done =>
    obtain ⟨-, hdb⟩ := hok done rfl
    exact inv.renewal hpunctual hlong hbelow hexpiry (hdb ▸ hextended) htime

/-- A step of the heartbeat. -/
theorem Kept.mine (inv : Kept hb me δ start hist s) (hpunctual : s.time ≤ due me δ start hist)
    (hlong : hb.longest δ < hb.ttl_ms) {op : ClientOp ℕ} (hguard : hb.Guards (trace me hist) op)
    (hbelow : (watch me δ hist).Below δ (hb.longest δ) op) :
    Kept hb me δ start (⟨me, ⟨op, (Net.answer op s).1⟩, s⟩ :: hist) (Net.answer op s).2 := by
  cases op with
  | redis c =>
    rcases hguard with rfl | ⟨t, now, htrace, rfl⟩
    · exact inv.ask hpunctual hbelow
    · refine inv.write hpunctual hlong ?_ hbelow
      rw [readings, htrace, List.foldl_append]
      rfl
  | nowMs => exact inv.nowMs hpunctual hbelow
  | signal | connect | sleep _ | select _ =>
    exact inv.wait hpunctual rfl rfl rfl hbelow inv.held (s.time_le_pass _) nofun

end Kept

section Runs

variable {ι : Type} [DecidableEq ι] (hb : Heartbeat ℕ) (me : ι) (δ start : ℕ)

/-- What a thread may do after some events of its own. -/
def Allowed (i : ι) (t : List (Event (ClientOp ℕ) ClientOp.Reply)) (op : ClientOp ℕ) : Prop :=
  if i = me then
    hb.Guard t op ∧ (t.foldl (Heartbeat.Watch.next δ) .start).Below δ (hb.longest δ) op
  else ∃ c, op = .redis c ∧ Spares (slotStr hb.slot) c

variable {hb me δ start} {cmds : ι → NativeCmd ℕ}

/-- What is assumed of a run: nothing delays the heartbeat for longer than `δ`, and claims do not
read a clock that is ahead. -/
def Timely (me : ι) (δ start : ℕ) (hist : List (ClientStep ι)) (s : Net) : Prop :=
  Punctual me δ start hist s.time ∧ ∀ st ∈ hist, Reads st

theorem Kept.step {hist : List (ClientStep ι)} {s : Net} {i : ι} {op : ClientOp ℕ}
    (inv : Kept hb me δ start hist s) (hlong : hb.longest δ < hb.ttl_ms)
    (hallowed : Allowed hb me δ i (protocolState (fun _ => record) (fun _ => []) hist i) op)
    (htimely : Timely me δ start (⟨i, ⟨op, (Net.answer op s).1⟩, s⟩ :: hist) (Net.answer op s).2) :
    PlausibleOp (slotStr hb.slot) hb.instance_id op (Net.answer op s).1 ∧
      Kept hb me δ start (⟨i, ⟨op, (Net.answer op s).1⟩, s⟩ :: hist) (Net.answer op s).2 := by
  obtain ⟨hpunctual, hreads⟩ := htimely
  have hdue : s.time ≤ due me δ start hist := Punctual.le_due hpunctual.2
  obtain ⟨expiry, hat, hexpiry⟩ := inv.held
  have hgenuine : PlausibleOp (slotStr hb.slot) hb.instance_id op (Net.answer op s).1 := by
    cases op with
    | redis c =>
      intro r hr
      obtain ⟨rfl, -⟩ := (Net.answer_redis c s).2 r hr
      refine hat.plausible fun now hc => ?_
      subst hc
      exact (List.forall_mem_cons.mp hreads).1.trans_lt (inv.unexpired hdue hexpiry)
    | nowMs | signal | connect | sleep _ | select _ => trivial
  refine ⟨hgenuine, ?_⟩
  by_cases hi : i = me
  · subst hi
    rw [Allowed, if_pos rfl] at hallowed
    exact inv.mine hdue hlong hallowed.1.2 hallowed.2
  · rw [Allowed, if_neg hi] at hallowed
    obtain ⟨c, rfl, hc⟩ := hallowed
    refine inv.other hi (fun expiry hat => ?_) (Net.time_le_answer _ s) fun since heq => ?_
    · rcases (Net.answer_redis c s).1 with hdb | hdb <;> rw [hdb]
      · exact hat
      · exact hat.spared hc
    · obtain rfl := ClientOp.redis.inj (congrArg Event.op heq)
      exact hgenuine _ (eq_of_heq (Event.mk.inj heq).2) since rfl

/-- A Redis that is never out of reach, where an instance holds slot 3. -/
def exampleNet : Net where
  db := (Redis.empty.zadd .leases (slotStr 3) 90000).set (.owner (slotStr 3)) "i-1"
  time := 1000
  count := 0
  fates := fun _ => ⟨none, true, 1⟩

end Runs

end Aerosuite.Pool
