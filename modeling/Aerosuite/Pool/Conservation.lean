import Aerosuite.Library.Rely
import Aerosuite.Pool.Lua
import Aerosuite.Pool.NativeRuns

/-! The slots of the pool over runs in which any number of commands of `aeroslot` interleave.  A
command that takes a slot out of one of the sorted sets puts it into one with its next operation, so
a slot is always in the pool or about to be, and no other slot gets there. -/

namespace Aerosuite.Pool

open Program

variable {ι σ : Type}

section Debt

/-- The slot that a command has taken out of a sorted set and not put back, after one more event. -/
def debtNext (debt : Option String) (ev : Event (Cmd σ) Cmd.Reply) : Option String :=
  match ev with
  | ⟨.zrem _ s, _⟩ | ⟨.zpopmin _, some (s, _)⟩ => some s
  | ⟨.zadd .., _⟩ => none
  | _ => debt

/-- The command puts back the slot that is owed. -/
def Settles (debt : Option String) (c : Cmd σ) : Prop :=
  ∀ s ∈ debt, ∃ key x, c = .zadd key s x

/-- The event shows that the slot is in the pool or puts it there. -/
def Ensures (slot : String) : Event (Cmd σ) Cmd.Reply → Prop
  | ⟨.zscore _ s, score⟩ => s = slot ∧ score ≠ none
  | ⟨.zaddNX _ s _, _⟩ => s = slot
  | _ => False

/-- The next operation of the program puts the slot into the pool. -/
def Owes {α : Type} (p : RedisProgram σ α) (slot : String) : Prop :=
  ∃ key x, p.nextOp = some (.zadd key slot x)

theorem settles_none (c : Cmd σ) : Settles none c := nofun

/-- A program that owes nothing at the start and the end, and settles each debt at once. -/
abbrev Settling {α : Type} (p : RedisProgram σ α) : Prop :=
  FollowsTo Settles debtNext (fun debt _ => debt = none) none p

variable [LinearOrder σ] {db : Redis σ} {slot : String} {c : Cmd σ}

theorem Redis.pooled_zadd (key : SetKey) (s : String) (x : σ) :
    (db.zadd key s x).Pooled slot ↔ slot = s ∨ db.Pooled slot := by
  cases key <;> simp only [Pooled, score_zadd] <;> by_cases h : slot = s <;> simp [h]

theorem Redis.pooled_zrem {key : SetKey} {s : String} (h : db.Pooled slot) (hs : slot ≠ s) :
    (db.zrem key s).Pooled slot := by
  simpa [Pooled, hs] using h

theorem Redis.pooled_of_zrem {key : SetKey} {s : String} (h : (db.zrem key s).Pooled slot) :
    db.Pooled slot := by
  simp only [Pooled, score_zrem] at h
  refine h.imp (fun h => ?_) fun h => ?_
  all_goals
    split at h
    · cases h
    · exact h

/-- A command takes a slot out of the pool only by making it a debt. -/
theorem pooled_exec (debt : Option String) (h : db.Pooled slot) :
    (exec c db).2.Pooled slot ∨ debtNext debt ⟨c, (exec c db).1⟩ = some slot := by
  cases c with
  | zscore key s | zrangebyscore key max | zrangeWithScores key | get key | set key value | del key
  | publish msg => exact .inl h
  | zadd key s x => exact .inl ((Redis.pooled_zadd key s x).mpr (.inr h))
  | zaddNX key s x =>
    rw [exec]
    split
    · exact .inl ((Redis.pooled_zadd key s x).mpr (.inr h))
    · exact .inl h
  | zrem key s =>
    by_cases hs : slot = s
    · exact .inr (congrArg some hs.symm)
    · exact .inl (Redis.pooled_zrem h hs)
  | zpopmin key =>
    cases hleast : (db.sets key).least with
    | none =>
      simp only [exec, hleast]
      exact .inl h
    | some entry =>
      obtain ⟨s, x⟩ := entry
      simp only [exec, hleast]
      by_cases hs : slot = s
      · exact .inr (congrArg some hs.symm)
      · exact .inl (Redis.pooled_zrem h hs)

theorem pooled_of_settles (h : Settles (some slot) c) : (exec c db).2.Pooled slot := by
  obtain ⟨key, x, rfl⟩ := h slot rfl
  exact (Redis.pooled_zadd key slot x).mpr (.inl rfl)

theorem pooled_of_ensures (h : Ensures slot ⟨c, (exec c db).1⟩) : (exec c db).2.Pooled slot := by
  cases c with
  | zscore key s =>
    obtain ⟨rfl, hscore⟩ := h
    have hsome := Option.isSome_iff_ne_none.mpr hscore
    cases key with
    | available => exact .inl hsome
    | leases => exact .inr hsome
  | zaddNX key s x =>
    obtain rfl : s = slot := h
    rw [exec]
    split
    · exact (Redis.pooled_zadd key s x).mpr (.inl rfl)
    · next hsome =>
      have hsome := Option.isSome_iff_ne_none.mpr hsome
      cases key with
      | available => exact .inl hsome
      | leases => exact .inr hsome
  | zadd key s x | zrem key s | zrangebyscore key max | zrangeWithScores key | zpopmin key | get key
  | set key value | del key | publish msg => exact h.elim

end Debt

section Runs

variable [DecidableEq ι] [LinearOrder σ]

/-- The slot that a client owes after a history. -/
def debt (hist : List (NativeStep ι σ)) (i : ι) : Option String :=
  protocolState (fun _ => debtNext) (fun _ => none) hist i

/-- The slot is in the pool, or owed by a client. -/
def Accounted (hist : List (NativeStep ι σ)) (db : Redis σ) (slot : String) : Prop :=
  db.Pooled slot ∨ ∃ i, debt hist i = some slot

variable {α : Type} {programs threads : ι → RedisProgram σ α} {db₀ db : Redis σ}
  {hist : List (NativeStep ι σ)} {slot : String}

theorem debt_cons (st : NativeStep ι σ) (i : ι) : debt (st :: hist) i =
    if st.who = i then debtNext (debt hist i) st.event else debt hist i := rfl

theorem Accounted.step (h : Accounted hist db slot) {i : ι} {c : Cmd σ}
    (hsettles : Settles (debt hist i) c) :
    Accounted (⟨i, ⟨c, (exec c db).1⟩, db⟩ :: hist) (exec c db).2 slot := by
  rcases h with hpooled | ⟨j, hj⟩
  · refine (pooled_exec (debt hist i) hpooled).imp_right fun hdebt => ⟨i, ?_⟩
    rwa [debt_cons, if_pos rfl]
  · by_cases hi : i = j
    · subst hi
      rw [hj] at hsettles
      exact .inl (pooled_of_settles hsettles)
    · refine .inr ⟨j, ?_⟩
      rwa [debt_cons, if_neg hi]

/-- A slot that was in the pool at some time of a run is accounted for ever after. -/
theorem accounted_of_run (run : Interleaved (fun _ => exec) programs db₀ hist threads db)
    (hprograms : ∀ i, Settling (programs i))
    (h : db₀.Pooled slot ∨ ∃ st ∈ hist, Ensures slot st.event) : Accounted hist db slot := by
  induction run with
  | start => exact .inl (h.resolve_right (by simp))
  | @step hist threads db run i c k hi ih =>
    have hsettles := run.followsTo hprograms i
    rw [hi] at hsettles
    rcases h with hpooled | ⟨st, hst, hensures⟩
    · exact (ih (.inl hpooled)).step hsettles.1
    · rcases List.mem_cons.mp hst with rfl | hst
      · exact .inl (pooled_of_ensures hensures)
      · exact (ih (.inr ⟨st, hst, hensures⟩)).step hsettles.1

/-- A client that owes a slot is about to put it back. -/
theorem Accounted.owes (h : Accounted hist db slot)
    (run : Interleaved (fun _ => exec) programs db₀ hist threads db)
    (hprograms : ∀ i, Settling (programs i)) : db.Pooled slot ∨ ∃ i, Owes (threads i) slot := by
  refine h.imp_right fun ⟨i, hi⟩ => ⟨i, ?_⟩
  have hthread := run.followsTo hprograms i
  cases hp : threads i with
  | ret a =>
    rw [hp] at hthread
    have hnone : debt hist i = none := hthread
    rw [hi] at hnone
    cases hnone
  | call c k =>
    rw [hp] at hthread
    obtain ⟨key, x, rfl⟩ := hthread.1 slot hi
    exact ⟨key, x, rfl⟩

end Runs

section Commands

variable [Zero σ] [Add σ]

theorem init_settling (min max : ℕ) :
    Settling (NativeCmd.init min max : NativeCmd σ).program := by
  refine FollowsTo.bind (Q := fun debt _ => debt = none) ?_ fun _ _ h => h
  unfold cmdInit
  split
  · rfl
  · refine FollowsTo.bind (Q := fun debt _ => debt = none) ?_ fun _ _ h => h
    refine FollowsTo.foldEach rfl fun n _ g added hg => ?_
    obtain rfl : g = none := hg
    refine ⟨settles_none _, fun leased => ?_⟩
    cases leased with
    | some x => rfl
    | none => exact ⟨settles_none _, fun _ => rfl⟩

theorem claim_settling (now : σ) (id : String) (ttl_ms : σ) :
    Settling (NativeCmd.claim now id ttl_ms).program := by
  simp only [NativeCmd.program, cmdClaim, perform_bind, call_bind, bind_assoc]
  refine ⟨settles_none _, fun expired => ?_⟩
  refine FollowsTo.bind (Q := fun debt _ => debt = none) (FollowsTo.forEach rfl ?_) ?_
  · intro s _ g hg
    obtain rfl : g = none := hg
    refine ⟨settles_none _, fun _ => ⟨?_, fun _ => ⟨settles_none _, fun _ => rfl⟩⟩⟩
    rintro _ ⟨⟩
    exact ⟨_, _, rfl⟩
  · intro g _ hg
    obtain rfl : g = none := hg
    refine ⟨settles_none _, fun popped => ?_⟩
    cases popped with
    | none => rfl
    | some entry =>
      refine ⟨?_, fun _ => ⟨settles_none _, fun _ => ⟨settles_none _, fun _ => rfl⟩⟩⟩
      rintro _ ⟨⟩
      exact ⟨_, _, rfl⟩

theorem renew_settling (slot : ℕ) (id : String) (now ttl_ms : σ) :
    Settling (NativeCmd.renew slot id now ttl_ms).program := by
  simp only [NativeCmd.program, cmdRenew, perform_bind, call_bind]
  refine ⟨settles_none _, fun owner => ?_⟩
  cases owner with
  | none => rfl
  | some o =>
    by_cases ho : o = id
    · simp only [ho, if_true]
      exact ⟨settles_none _, fun _ => rfl⟩
    · simp only [ho, if_false]
      rfl

theorem release_settling (slot : ℕ) (id : String) (now : σ) :
    Settling (NativeCmd.release slot id now).program := by
  simp only [NativeCmd.program, cmdRelease, perform_bind, call_bind]
  refine ⟨settles_none _, fun owner => ?_⟩
  cases owner with
  | none => rfl
  | some o =>
    by_cases ho : o = id
    · simp only [ho, ne_eq, not_true, if_false]
      refine ⟨settles_none _, fun _ => ⟨settles_none _, fun _ => ⟨?_, fun _ => ?_⟩⟩⟩
      · rintro _ ⟨⟩
        exact ⟨_, _, rfl⟩
      · exact ⟨settles_none _, fun _ => rfl⟩
    · simp only [ho, ne_eq, not_false_iff, if_true]
      rfl

theorem NativeCmd.settling (cmd : NativeCmd σ) : Settling cmd.program := by
  cases cmd with
  | init min max => exact init_settling min max
  | claim now id ttl_ms => exact claim_settling now id ttl_ms
  | renew slot id now ttl_ms => exact renew_settling slot id now ttl_ms
  | release slot id now => exact release_settling slot id now

omit [Add σ] in
theorem exec_initSlot {added n b : ℕ} {t : List (Event (Cmd σ) Cmd.Reply)}
    (h : Exec (cmdInitSlot added n) t b) : ∃ ev ∈ t, Ensures (slotStr n) ev := by
  obtain ⟨leased, t, rfl, hrest⟩ := exec_call.mp h
  cases leased with
  | some x => exact ⟨_, List.mem_cons_self, rfl, nofun⟩
  | none =>
    obtain ⟨count, t, rfl, -⟩ := exec_call.mp hrest
    exact ⟨_, List.mem_cons_of_mem _ List.mem_cons_self, rfl⟩

/-- An init that ends has seen each slot of its range in the pool or put it there. -/
theorem exec_init {min max : ℕ} {t : List (Event (Cmd σ) Cmd.Reply)}
    (h : Exec (NativeCmd.init min max : NativeCmd σ).program t ()) {slot : String}
    (hslot : InRange min max slot) : ∃ ev ∈ t, Ensures slot ev := by
  have hloop : ∀ slots added b t, Exec (foldEach cmdInitSlot added slots : RedisProgram σ ℕ) t b →
      ∀ n ∈ slots, ∃ ev ∈ t, Ensures (slotStr n) ev := by
    intro slots
    induction slots with
    | nil => exact fun _ _ _ _ n hn => absurd hn List.not_mem_nil
    | cons m slots ih =>
      intro added b t h n hn
      obtain ⟨t₁, a, t₂, rfl, h₁, h₂⟩ := exec_bind.mp h
      rcases List.mem_cons.mp hn with rfl | hn
      · obtain ⟨ev, hev, hensures⟩ := exec_initSlot h₁
        exact ⟨ev, List.mem_append_left _ hev, hensures⟩
      · obtain ⟨ev, hev, hensures⟩ := ih a b t₂ h₂ n hn
        exact ⟨ev, List.mem_append_right _ hev, hensures⟩
  obtain ⟨n, hn, rfl⟩ := hslot
  obtain ⟨r, h, -⟩ := exec_bind_ret.mp h
  have hle := (mem_slotRange.mp hn).1.trans (mem_slotRange.mp hn).2
  rw [cmdInit, if_neg (by omega)] at h
  obtain ⟨added, h, -⟩ := exec_bind_ret.mp h
  exact hloop _ _ _ _ h n hn

end Commands

section Known

/-- What a command can reply when every slot of the database is known. -/
def RepliesKnown (known : String → Prop) : (c : Cmd σ) → c.Reply → Prop
  | .zrangebyscore _ _, slots => ∀ s ∈ slots, known s
  | .zpopmin _, popped => ∀ entry ∈ popped, known entry.1
  | .get (.owner s), owner => owner ≠ none → known s
  | _, _ => True

/-- A command that puts only known slots into the database. -/
def PutsKnown (known : String → Prop) : Cmd σ → Prop
  | .zadd _ s _ | .zaddNX _ s _ | .set (.owner s) _ => known s
  | _ => True

/-- A program that puts only known slots into the database, when it finds only such slots there. -/
abbrev StaysKnown {α : Type} (known : String → Prop) (p : RedisProgram σ α) : Prop :=
  Within (RepliesKnown known) (fun (_ : Unit) => PutsKnown known) (fun _ _ => ())
    (fun _ _ => True) () p

section Programs

variable [Zero σ] [Add σ] {known : String → Prop}

theorem init_staysKnown {min max : ℕ} (h : ∀ slot, InRange min max slot → known slot) :
    StaysKnown known (NativeCmd.init min max : NativeCmd σ).program := by
  have hloop : ∀ slots added, (∀ n ∈ slots, known (slotStr n)) →
      StaysKnown (σ := σ) known (foldEach cmdInitSlot added slots) := by
    intro slots
    induction slots with
    | nil => exact fun _ _ => trivial
    | cons n slots ih =>
      intro added hslots
      rw [foldEach_cons]
      refine Within.bind (Q := fun _ _ => True) ⟨trivial, fun leased _ => ?_⟩ fun _ a _ =>
        ih a fun m hm => hslots m (List.mem_cons_of_mem _ hm)
      cases leased with
      | some x => trivial
      | none => exact ⟨hslots n List.mem_cons_self, fun _ _ => trivial⟩
  refine Within.bind (Q := fun _ _ => True) ?_ fun _ _ _ => trivial
  unfold cmdInit
  split
  · trivial
  · exact (hloop _ _ fun n hn => h _ ⟨n, hn, rfl⟩).bind fun _ _ _ => trivial

theorem claim_staysKnown (now : σ) (id : String) (ttl_ms : σ) :
    StaysKnown known (NativeCmd.claim now id ttl_ms).program := by
  simp only [NativeCmd.program, cmdClaim, perform_bind, call_bind, bind_assoc]
  refine ⟨trivial, fun expired hexpired => ?_⟩
  refine Within.bind (Q := fun _ _ => True) (Within.forEach trivial fun s hs _ _ => ?_)
    fun _ _ _ => ⟨trivial, fun popped hpopped => ?_⟩
  · exact ⟨trivial, fun _ _ => ⟨hexpired s hs, fun _ _ => ⟨trivial, fun _ _ => trivial⟩⟩⟩
  · cases popped with
    | none => trivial
    | some entry =>
      have hs := hpopped entry rfl
      exact ⟨hs, fun _ _ => ⟨hs, fun _ _ => ⟨trivial, fun _ _ => trivial⟩⟩⟩

theorem renew_staysKnown (slot : ℕ) (id : String) (now ttl_ms : σ) :
    StaysKnown known (NativeCmd.renew slot id now ttl_ms).program := by
  simp only [NativeCmd.program, cmdRenew, perform_bind, call_bind]
  refine ⟨trivial, fun owner howner => ?_⟩
  cases owner with
  | none => trivial
  | some o =>
    by_cases ho : o = id
    · simp only [ho, if_true]
      exact ⟨howner (by rintro ⟨⟩), fun _ _ => trivial⟩
    · simp only [ho, if_false]
      trivial

theorem release_staysKnown (slot : ℕ) (id : String) (now : σ) :
    StaysKnown known (NativeCmd.release slot id now).program := by
  simp only [NativeCmd.program, cmdRelease, perform_bind, call_bind]
  refine ⟨trivial, fun owner howner => ?_⟩
  cases owner with
  | none => trivial
  | some o =>
    by_cases ho : o = id
    · simp only [ho, ne_eq, not_true, if_false]
      exact ⟨trivial, fun _ _ => ⟨trivial, fun _ _ => ⟨howner (by rintro ⟨⟩), fun _ _ =>
        ⟨trivial, fun _ _ => trivial⟩⟩⟩⟩
    · simp only [ho, ne_eq, not_false_iff, if_true]
      trivial

theorem NativeCmd.staysKnown (cmd : NativeCmd σ)
    (h : ∀ min max, cmd = .init min max → ∀ slot, InRange min max slot → known slot) :
    StaysKnown known cmd.program := by
  cases cmd with
  | init min max => exact init_staysKnown (h min max rfl)
  | claim now id ttl_ms => exact claim_staysKnown now id ttl_ms
  | renew slot id now ttl_ms => exact renew_staysKnown slot id now ttl_ms
  | release slot id now => exact release_staysKnown slot id now

end Programs

variable [LinearOrder σ]

/-- Every slot in the sets is known, and every slot with an owner. -/
def AllKnown (known : String → Prop) (db : Redis σ) : Prop :=
  ∀ slot, db.Pooled slot ∨ db.owner slot ≠ none → known slot

variable {known : String → Prop} {db : Redis σ} {c : Cmd σ}

theorem AllKnown.replies (h : AllKnown known db) (c : Cmd σ) :
    RepliesKnown known c (exec c db).1 := by
  cases c with
  | zscore key s | zadd key s x | zaddNX key s x | zrem key s | zrangeWithScores key
  | set key value | del key | publish msg => trivial
  | zrangebyscore key max =>
    intro s hs
    obtain ⟨x, hx, -⟩ := SortedSet.mem_upTo.mp hs
    have hsome : (db.score key s).isSome := by simp [Redis.score, hx]
    cases key with
    | available => exact h s (.inl (.inl hsome))
    | leases => exact h s (.inl (.inr hsome))
  | zpopmin key =>
    intro entry hentry
    have hscore := score_of_zpopmin (Option.mem_def.mp hentry)
    have hsome : (db.score key entry.1).isSome := by simp [hscore]
    cases key with
    | available => exact h _ (.inl (.inl hsome))
    | leases => exact h _ (.inl (.inr hsome))
  | get key =>
    cases key with
    | owner s => exact fun howner => h s (.inr howner)
    | backendWeight ip | backendWeightsTs => trivial

theorem AllKnown.exec (h : AllKnown known db) (hc : PutsKnown known c) :
    AllKnown known (exec c db).2 := by
  have hadd : ∀ key s x, known s → AllKnown known (db.zadd key s x) := by
    intro key s x hs slot hslot
    rw [Redis.pooled_zadd, Redis.owner_zadd] at hslot
    rcases hslot with (rfl | hpooled) | howner
    · exact hs
    · exact h slot (.inl hpooled)
    · exact h slot (.inr howner)
  have hrem : ∀ key s, AllKnown known (db.zrem key s) := fun key s slot hslot =>
    h slot (hslot.imp_left Redis.pooled_of_zrem)
  cases c with
  | zscore key s | zrangebyscore key max | zrangeWithScores key | get key | publish msg => exact h
  | zadd key s x => exact hadd key s x hc
  | zaddNX key s x =>
    rw [Pool.exec]
    split
    · exact hadd key s x hc
    · exact h
  | zrem key s => exact hrem key s
  | zpopmin key =>
    cases hleast : (db.sets key).least with
    | none => simpa only [Pool.exec, hleast] using h
    | some entry =>
      simp only [Pool.exec, hleast]
      exact hrem key _
  | set key value =>
    intro slot hslot
    rcases hslot with hpooled | howner
    · exact h slot (.inl hpooled)
    · cases key with
      | owner s =>
        by_cases hs : slot = s
        · exact hs ▸ hc
        · exact h slot (.inr (by simpa [Pool.exec, hs] using howner))
      | backendWeight ip | backendWeightsTs =>
        exact h slot (.inr (by simpa [Pool.exec, Redis.owner, Redis.set] using howner))
  | del key =>
    intro slot hslot
    rcases hslot with hpooled | howner
    · exact h slot (.inl hpooled)
    · cases key with
      | owner s =>
        by_cases hs : slot = s
        · simp [Pool.exec, hs] at howner
        · exact h slot (.inr (by simpa [Pool.exec, hs] using howner))
      | backendWeight ip | backendWeightsTs =>
        exact h slot (.inr (by simpa [Pool.exec, Redis.owner, Redis.del] using howner))

end Known

section Total

variable [DecidableEq ι] [LinearOrder σ] [Zero σ] [Add σ] (cmds : ι → NativeCmd σ)

/-- The slot is in the range of an init that some client runs. -/
def Requested (slot : String) : Prop := ∃ i min max, cmds i = .init min max ∧ InRange min max slot

/-- Such an init has ended. -/
def Initialised (threads : ι → RedisProgram σ Unit) (slot : String) : Prop :=
  ∃ i min max, cmds i = .init min max ∧ threads i = .ret () ∧ InRange min max slot

variable {cmds} {db₀ db : Redis σ} {hist : List (NativeStep ι σ)}
  {threads : ι → RedisProgram σ Unit}

/-- No slot is lost: at any time of a run, a slot that was in the pool at the start or is in the
range of an init that has ended is in the pool, or the next operation of some client puts it
there. -/
theorem accounted_of_initialised
    (run : Interleaved (fun _ => exec) (fun i => (cmds i).program) db₀ hist threads db)
    {slot : String} (h : db₀.Pooled slot ∨ Initialised cmds threads slot) :
    db.Pooled slot ∨ ∃ i, Owes (threads i) slot := by
  have hsettling := fun i => (cmds i).settling
  refine (accounted_of_run run hsettling (h.imp_right ?_)).owes run hsettling
  rintro ⟨i, min, max, hcmd, hended, hslot⟩
  have hexec := run.exec_init (hended ▸ Exec.ret ())
  rw [hcmd, List.append_nil] at hexec
  obtain ⟨ev, hev, hensures⟩ := exec_init hexec hslot
  obtain ⟨st, hst, -, rfl⟩ := mem_performedBy.mp hev
  exact ⟨st, hst, hensures⟩

/-- No slot is made up. -/
theorem known_of_run
    (run : Interleaved (fun _ => exec) (fun i => (cmds i).program) db₀ hist threads db)
    {known : String → Prop} (h₀ : AllKnown known db₀)
    (h : ∀ slot, Requested cmds slot → known slot) :
    AllKnown known db ∧ ∀ i slot, Owes (threads i) slot → known slot := by
  obtain ⟨hdb, hthreads⟩ := run.within (fun _ _ => True) (fun _ => AllKnown known)
    (fun i => (cmds i).staysKnown fun min max hcmd slot hslot => h slot ⟨i, min, max, hcmd, hslot⟩)
    h₀ (fun _ _ _ _ => trivial) (fun _ _ _ c hI hc _ => ⟨hI.replies c, hI.exec hc⟩) trivial
  refine ⟨hdb, fun i slot ⟨key, x, hnext⟩ => ?_⟩
  have hthread := hthreads i
  cases hp : threads i with
  | ret a => simp [hp, nextOp] at hnext
  | call c k =>
    rw [hp] at hthread hnext
    obtain rfl : c = .zadd key slot x := Option.some.inj hnext
    exact hthread.1

/-- The commands keep the slots of the pool, however they interleave and whichever of them stop
half-way: what is missing from the pool is about to be put back, and nothing is added but the ranges
of the inits. -/
theorem slots_conserved
    (run : Interleaved (fun _ => exec) (fun i => (cmds i).program) db₀ hist threads db)
    (howned : ∀ slot, db₀.owner slot ≠ none → db₀.Pooled slot) :
    (∀ slot, db₀.Pooled slot ∨ Initialised cmds threads slot →
      db.Pooled slot ∨ ∃ i, Owes (threads i) slot) ∧
    (∀ slot, (db.Pooled slot ∨ ∃ i, Owes (threads i) slot) →
      db₀.Pooled slot ∨ Requested cmds slot) ∧
    ((∀ i, threads i = .ret ()) →
      ∀ slot, db.Pooled slot ↔ db₀.Pooled slot ∨ Requested cmds slot) := by
  have hknown : AllKnown (fun slot => db₀.Pooled slot ∨ Requested cmds slot) db₀ :=
    fun slot hslot => .inl (hslot.elim id (howned slot))
  obtain ⟨hdb, howes⟩ := known_of_run run hknown fun slot h => .inr h
  refine ⟨fun slot h => accounted_of_initialised run h, fun slot h => ?_, fun hended slot => ?_⟩
  · rcases h with hpooled | ⟨i, hi⟩
    · exact hdb slot (.inl hpooled)
    · exact howes i slot hi
  · refine ⟨fun hpooled => hdb slot (.inl hpooled), fun h => ?_⟩
    have hinit : db₀.Pooled slot ∨ Initialised cmds threads slot :=
      h.imp_right fun ⟨i, min, max, hcmd, hslot⟩ => ⟨i, min, max, hcmd, hended i, hslot⟩
    rcases accounted_of_initialised run hinit with hpooled | ⟨i, key, x, hnext⟩
    · exact hpooled
    · rw [hended i] at hnext
      cases hnext

/-- A claim that is killed in its sweep, next to an init of the slots 0 and 1 that ends. -/
def sweepAndInit (b : Bool) : NativeCmd ℕ := if b then .claim 200 "a" 60000 else .init 0 1

/-- The killed sweep owes slot 0, which is in the pool no more. -/
theorem slots_conserved_sweep :
    let reached := play (fun _ => exec) (fun b => (sweepAndInit b).program) expiredPool
      [false, false, false, true, true, false]
    (¬ reached.2.2.Pooled "0" ∧ ∃ b, Owes (reached.2.1 b) "0") ∧
      (reached.2.2.Pooled "1" ∨ ∃ b, Owes (reached.2.1 b) "1") := by
  have howned : ∀ slot, expiredPool.owner slot ≠ none → expiredPool.Pooled slot := by
    intro slot h
    by_cases hs : slot = "0"
    · subst hs
      decide
    · simp [expiredPool, hs] at h
  have hkept := (slots_conserved (interleaved_play (fun _ => exec)
    (fun b => (sweepAndInit b).program) expiredPool [false, false, false, true, true, false])
    howned).1
  have hswept : ¬ (play (fun _ => exec) (fun b => (sweepAndInit b).program) expiredPool
    [false, false, false, true, true, false]).2.2.Pooled "0" := by decide
  exact ⟨⟨hswept, (hkept "0" (.inl (by decide))).resolve_left hswept⟩,
    hkept "1" (.inr ⟨false, 0, 1, rfl, rfl, 1, by decide, rfl⟩)⟩

end Total

end Aerosuite.Pool
