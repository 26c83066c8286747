import Aerosuite.Pool.Native

/-! Runs in which the commands of `aeroslot` interleave.  A sweep works on a list of expired leases
that it read earlier, so it can take a slot away from an instance that another claim has just given
it to.  In a run where no step does such harm, a slot that a claim pops is held by nobody. -/

namespace Aerosuite.Pool

open Program

variable {ι σ : Type} [DecidableEq ι] [LinearOrder σ]

/-- One Redis command of a run. -/
abbrev NativeStep (ι σ : Type) [LinearOrder σ] := Step ι (Cmd σ) Cmd.Reply (Redis σ)

/-- The slot that the claim of a client has popped and not yet registered. -/
def flying (hist : List (NativeStep ι σ)) (i : ι) : Option String :=
  protocolState (fun _ => popNext) (fun _ => none) hist i

/-- A command that removes a lease ends it when its owner releases it, or when a claim sweeps it no
earlier than the expiry. -/
def NativeCmd.ends : NativeCmd σ → String → σ → Bool
  | .release _ id _, owner, _ => id = owner
  | .claim now _ _, _, expiry => expiry ≤ now
  | _, _, _ => false

section Tenures

variable (cmds : ι → NativeCmd σ) (db₀ : Redis σ)

/-- The instance whose command wrote the lease of the slot last. -/
def writer : List (NativeStep ι σ) → String → Option String
  | [], slot => db₀.owner slot
  | st :: hist, slot =>
    match st.event.op with
    | .zadd .leases s _ => if s = slot then (cmds st.who).instanceId else writer hist slot
    | _ => writer hist slot

/-- The step writes a lease of the slot for an instance, until `expiry`. -/
def Writes (st : NativeStep ι σ) (slot id : String) (expiry : σ) : Prop :=
  st.event.op = .zadd .leases slot expiry ∧ (cmds st.who).instanceId = some id

/-- The step ends a lease of the slot that an instance held until `expiry`. -/
def Ends (st : NativeStep ι σ) (slot id : String) (expiry : σ) : Prop :=
  st.event.op = .zrem .leases slot ∧ (cmds st.who).ends id expiry = true

/-- A lease of the slot that was written, by a command or before the run, and has not ended. -/
def Live : List (NativeStep ι σ) → String → String → σ → Prop
  | [], slot, id, expiry => db₀.score .leases slot = some expiry ∧ db₀.owner slot = some id
  | st :: hist, slot, id, expiry =>
    Writes cmds st slot id expiry ∨ Live hist slot id expiry ∧ ¬ Ends cmds st slot id expiry

/-- Nobody holds the slot: no claim has popped it and not yet registered its lease, and every lease
of it that was written has ended. -/
def Unheld (hist : List (NativeStep ι σ)) (slot : String) : Prop :=
  (∀ i, flying hist i ≠ some slot) ∧ ∀ id expiry, ¬ Live cmds db₀ hist slot id expiry

/-- A command that does no harm when it takes effect on `db` after `hist`.  A slot is made available
only when it is neither leased nor about to be.  A sweep removes only a lease that has expired, and
a release one that its instance wrote.  A renewal writes over a lease of its own instance that does
not end later, or where there is none. -/
def Harmless (hist : List (NativeStep ι σ)) (db : Redis σ) (i : ι) : Cmd σ → Prop
  | .zadd .available slot _ | .zaddNX .available slot _ =>
    db.score .leases slot = none ∧ ∀ j, flying hist j ≠ some slot
  | .zrem .leases slot => ∀ expiry, db.score .leases slot = some expiry →
    match cmds i with
    | .claim now _ _ => expiry ≤ now
    | cmd => writer cmds db₀ hist slot = cmd.instanceId
  | .zadd .leases slot expiry =>
    match cmds i with
    | .renew _ id _ _ => db.score .available slot = none ∧ (∀ j, flying hist j ≠ some slot) ∧
        ∀ old, db.score .leases slot = some old → writer cmds db₀ hist slot = some id ∧ old ≤ expiry
    | _ => True
  | _ => True

/-- No step of the history does harm. -/
def HarmlessRun : List (NativeStep ι σ) → Prop
  | [] => True
  | st :: hist => Harmless cmds db₀ hist st.before st.who st.event.op ∧ HarmlessRun hist

/-- What holds between harmless steps. -/
structure Exclusive (hist : List (NativeStep ι σ)) (db : Redis σ) : Prop where
  offered : ∀ slot, db.score .available slot ≠ none →
    db.score .leases slot = none ∧ ∀ i, flying hist i ≠ some slot
  leased : ∀ slot i, flying hist i = some slot → db.score .leases slot = none
  single : ∀ slot i j, flying hist i = some slot → flying hist j = some slot → i = j
  live : ∀ slot id expiry, Live cmds db₀ hist slot id expiry →
    writer cmds db₀ hist slot = some id ∧ ∃ y, db.score .leases slot = some y ∧ expiry ≤ y

instance (st : NativeStep ι σ) (slot id : String) (expiry : σ) :
    Decidable (Ends cmds st slot id expiry) := inferInstanceAs (Decidable (_ ∧ _))

instance (st : NativeStep ι σ) (slot id : String) (expiry : σ) :
    Decidable (Writes cmds st slot id expiry) := inferInstanceAs (Decidable (_ ∧ _))

instance decidableLive : (hist : List (NativeStep ι σ)) → (slot id : String) → (expiry : σ) →
    Decidable (Live cmds db₀ hist slot id expiry)
  | [], _, _, _ => inferInstanceAs (Decidable (_ ∧ _))
  | _ :: hist, slot, id, expiry =>
    have := decidableLive hist slot id expiry
    inferInstanceAs (Decidable (_ ∨ _ ∧ ¬ _))

variable {cmds db₀}

theorem Exclusive.start (h : Consistent db₀) : Exclusive cmds db₀ [] db₀ where
  offered slot hav := ⟨(h.disjoint slot).resolve_left hav, fun i => by simp [flying, protocolState]⟩
  leased slot i hi := by simp [flying, protocolState] at hi
  single slot i j hi := by simp [flying, protocolState] at hi
  live slot id expiry hlive := ⟨hlive.2, expiry, hlive.1, le_rfl⟩

theorem flying_cons (st : NativeStep ι σ) (hist : List (NativeStep ι σ)) (i : ι) :
    flying (st :: hist) i =
      if st.who = i then popNext (flying hist i) st.event else flying hist i := rfl

section Step

variable {hist : List (NativeStep ι σ)} {st : NativeStep ι σ} {db db' : Redis σ}

theorem flying_of_popNext (h : ∀ popped, popNext popped st.event = popped) (i : ι) :
    flying (st :: hist) i = flying hist i := by
  rw [flying_cons, h, ite_self]

omit [DecidableEq ι] in
theorem writer_of_not (hop : ∀ s x, st.event.op ≠ .zadd .leases s x) (slot : String) :
    writer cmds db₀ (st :: hist) slot = writer cmds db₀ hist slot := by
  rw [writer]
  split
  · next s x heq => exact absurd heq (hop s x)
  · rfl

omit [DecidableEq ι] in
theorem live_of_not (hop : ∀ s x, st.event.op ≠ .zadd .leases s x) {slot id : String} {expiry : σ}
    (hlive : Live cmds db₀ (st :: hist) slot id expiry) :
    Live cmds db₀ hist slot id expiry ∧ ¬ Ends cmds st slot id expiry :=
  hlive.resolve_left fun hw => hop slot expiry hw.1

/-- A step that leaves the leases alone, and makes a slot available only when nobody holds it. -/
theorem Exclusive.of_same_leases (inv : Exclusive cmds db₀ hist db)
    (hop : ∀ s x, st.event.op ≠ .zadd .leases s x)
    (hpop : ∀ popped, popNext popped st.event = popped)
    (hlease : ∀ slot, db'.score .leases slot = db.score .leases slot)
    (havail : ∀ slot, db'.score .available slot ≠ none → db.score .available slot = none →
      db.score .leases slot = none ∧ ∀ i, flying hist i ≠ some slot) :
    Exclusive cmds db₀ (st :: hist) db' where
  offered slot hav := by
    simp only [flying_of_popNext hpop, hlease]
    by_cases h : db.score .available slot = none
    · exact havail slot hav h
    · exact inv.offered slot h
  leased slot i hi := by
    rw [flying_of_popNext hpop] at hi
    rw [hlease]
    exact inv.leased slot i hi
  single slot i j hi hj := by
    rw [flying_of_popNext hpop] at hi hj
    exact inv.single slot i j hi hj
  live slot id expiry hlive := by
    rw [writer_of_not hop, hlease]
    exact inv.live slot id expiry (live_of_not hop hlive).1

theorem Exclusive.of_zrem (inv : Exclusive cmds db₀ hist db) {slot : String}
    (hop : st.event.op = .zrem .leases slot)
    (hends : ∀ id expiry, Live cmds db₀ hist slot id expiry → Ends cmds st slot id expiry)
    (havail : ∀ s, db'.score .available s = db.score .available s)
    (hlease : ∀ s, db'.score .leases s = if s = slot then none else db.score .leases s) :
    Exclusive cmds db₀ (st :: hist) db' := by
  have hne : ∀ s x, st.event.op ≠ .zadd .leases s x := by simp [hop]
  have hpop : ∀ popped, popNext popped st.event = popped := by
    obtain ⟨who, ⟨op, reply⟩, before⟩ := st
    subst hop
    exact fun _ => rfl
  refine ⟨fun s hav => ?_, fun s i hi => ?_, fun s i j hi hj => ?_, fun s id expiry hlive => ?_⟩
  · rw [havail] at hav
    simp only [flying_of_popNext hpop, hlease]
    obtain ⟨hnone, hfly⟩ := inv.offered s hav
    exact ⟨by simp [hnone], hfly⟩
  · rw [flying_of_popNext hpop] at hi
    simp [hlease, inv.leased s i hi]
  · rw [flying_of_popNext hpop] at hi hj
    exact inv.single s i j hi hj
  · obtain ⟨hlive, hnot⟩ := live_of_not hne hlive
    have hs : s ≠ slot := by
      rintro rfl
      exact hnot (hends id expiry hlive)
    rw [writer_of_not hne, hlease, if_neg hs]
    exact inv.live s id expiry hlive

theorem Exclusive.of_lease (inv : Exclusive cmds db₀ hist db) {slot id : String} {expiry : σ}
    (hop : st.event.op = .zadd .leases slot expiry) (hid : (cmds st.who).instanceId = some id)
    (hfree : db.score .available slot = none)
    (hfly : ∀ i s, flying (st :: hist) i = some s → flying hist i = some s ∧ s ≠ slot)
    (hlive : ∀ id' old, Live cmds db₀ hist slot id' old → id' = id ∧ old ≤ expiry)
    (havail : ∀ s, db'.score .available s = db.score .available s)
    (hlease : ∀ s, db'.score .leases s = if s = slot then some expiry else db.score .leases s) :
    Exclusive cmds db₀ (st :: hist) db' := by
  refine ⟨fun s hav => ?_, fun s i hi => ?_, fun s i j hi hj => ?_, fun s id' old hlv => ?_⟩
  · rw [havail] at hav
    obtain ⟨hnone, hnofly⟩ := inv.offered s hav
    have hs : s ≠ slot := by
      rintro rfl
      exact hav hfree
    exact ⟨by rw [hlease, if_neg hs, hnone], fun i hi => hnofly i (hfly i s hi).1⟩
  · obtain ⟨hi, hs⟩ := hfly i s hi
    rw [hlease, if_neg hs]
    exact inv.leased s i hi
  · exact inv.single s i j (hfly i s hi).1 (hfly j s hj).1
  · by_cases hs : s = slot
    · subst hs
      have hw : id' = id ∧ old ≤ expiry := by
        rcases hlv with ⟨hop', hid'⟩ | ⟨hlv, -⟩
        · rw [hop] at hop'
          rw [hid] at hid'
          cases hop'
          cases hid'
          exact ⟨rfl, le_rfl⟩
        · exact hlive id' old hlv
      obtain ⟨rfl, hle⟩ := hw
      refine ⟨?_, expiry, by simp [hlease], hle⟩
      simp [writer, hop, hid]
    · have hold : Live cmds db₀ hist s id' old := by
        rcases hlv with ⟨hop', -⟩ | ⟨hlv, -⟩
        · rw [hop] at hop'
          cases hop'
          exact absurd rfl hs
        · exact hlv
      rw [hlease, if_neg hs, writer, hop]
      simp only [Ne.symm hs, if_false]
      exact inv.live s id' old hold

theorem Exclusive.of_pop (inv : Exclusive cmds db₀ hist db) {slot : String} {x : σ}
    (hev : st.event = ⟨.zpopmin .available, some (slot, x)⟩)
    (hmem : db.score .available slot = some x)
    (havail : ∀ s, db'.score .available s = if s = slot then none else db.score .available s)
    (hlease : ∀ s, db'.score .leases s = db.score .leases s) :
    Exclusive cmds db₀ (st :: hist) db' := by
  obtain ⟨hnone, hnofly⟩ := inv.offered slot (by simp [hmem])
  have hne : ∀ s y, st.event.op ≠ .zadd .leases s y := by simp [hev]
  have hpop : ∀ popped, popNext popped st.event = some slot := by
    rw [hev]
    exact fun _ => rfl
  have hfly : ∀ i s, flying (st :: hist) i = some s →
      (st.who = i ∧ s = slot) ∨ (s ≠ slot ∧ flying hist i = some s) := fun i s hi => by
    rw [flying_cons, hpop] at hi
    split at hi
    · next hwho => exact .inl ⟨hwho, (Option.some.inj hi).symm⟩
    · refine .inr ⟨?_, hi⟩
      rintro rfl
      exact hnofly i hi
  refine ⟨fun s hav => ?_, fun s i hi => ?_, fun s i j hi hj => ?_, fun s id expiry hlive => ?_⟩
  · have hs : s ≠ slot := by
      rintro rfl
      simp [havail] at hav
    rw [havail, if_neg hs] at hav
    obtain ⟨hl, hn⟩ := inv.offered s hav
    refine ⟨by rw [hlease, hl], fun i hi => ?_⟩
    rcases hfly i s hi with ⟨-, rfl⟩ | ⟨-, hi⟩
    · exact hs rfl
    · exact hn i hi
  · rw [hlease]
    rcases hfly i s hi with ⟨-, rfl⟩ | ⟨-, hi⟩
    · exact hnone
    · exact inv.leased s i hi
  · rcases hfly i s hi with ⟨rfl, rfl⟩ | ⟨hs, hi⟩
    · rcases hfly j s hj with ⟨hj, -⟩ | ⟨hs, -⟩
      · exact hj
      · exact absurd rfl hs
    · rcases hfly j s hj with ⟨-, rfl⟩ | ⟨-, hj⟩
      · exact absurd rfl hs
      · exact inv.single s i j hi hj
  · rw [writer_of_not hne, hlease]
    exact inv.live s id expiry (live_of_not hne hlive).1

end Step

variable [Add σ] {hist : List (NativeStep ι σ)} {db : Redis σ} {i : ι} {slot : String}

/-- A claim registers the slot that it has popped, and a renewal extends the lease of its owner. -/
theorem Exclusive.step_lease (inv : Exclusive cmds db₀ hist db) {x : σ}
    (hissue : (cmds i).Issues (flying hist i) (.zadd .leases slot x))
    (hsafe : Harmless cmds db₀ hist db i (.zadd .leases slot x)) :
    Exclusive cmds db₀ (⟨i, ⟨.zadd .leases slot x, ()⟩, db⟩ :: hist)
      (exec (.zadd .leases slot x) db).2 := by
  have hfly : ∀ j s, flying (⟨i, ⟨.zadd .leases slot x, ()⟩, db⟩ :: hist) j = some s →
      j ≠ i ∧ flying hist j = some s := by
    intro j s hj
    by_cases hji : j = i
    · have hnone : flying (⟨i, ⟨.zadd .leases slot x, ()⟩, db⟩ :: hist) i = none := if_pos rfl
      rw [hji, hnone] at hj
      cases hj
    · exact ⟨hji, (if_neg (Ne.symm hji)).symm.trans hj⟩
  obtain ⟨hpopped, now, id, ttl_ms, hcmd⟩ | ⟨hpopped, n, id, now, ttl_ms, hcmd⟩ :=
    hissue.zadd_leases
  · -- A claim registers the slot that it has popped, which nobody else holds.
    have hnl := inv.leased slot i hpopped
    have hid : (cmds i).instanceId = some id := by simp [hcmd, NativeCmd.instanceId]
    refine inv.of_lease rfl hid ?_ (fun j s hj => ?_) (fun id' old hlive => ?_)
      (by simp [exec]) (by simp [exec])
    · by_contra hav
      exact (inv.offered slot hav).2 i hpopped
    · obtain ⟨hji, hold⟩ := hfly j s hj
      refine ⟨hold, ?_⟩
      rintro rfl
      exact hji (inv.single s j i hold hpopped)
    · obtain ⟨-, y, hy, -⟩ := inv.live slot id' old hlive
      rw [hnl] at hy
      cases hy
  · rw [Harmless, hcmd] at hsafe
    obtain ⟨hav, hnofly, hold⟩ := hsafe
    have hid : (cmds i).instanceId = some id := by simp [hcmd, NativeCmd.instanceId]
    refine inv.of_lease rfl hid hav (fun j s hj => ?_) (fun id' old hlive => ?_)
      (by simp [exec]) (by simp [exec])
    · obtain ⟨-, hflying⟩ := hfly j s hj
      refine ⟨hflying, ?_⟩
      rintro rfl
      exact hnofly j hflying
    · obtain ⟨hw, y, hy, hle⟩ := inv.live slot id' old hlive
      obtain ⟨hw', hyx⟩ := hold y hy
      exact ⟨Option.some.inj (hw.symm.trans hw'), hle.trans hyx⟩

/-- A sweep removes an expired lease, and a release the lease of its owner. -/
theorem Exclusive.step_unlease (inv : Exclusive cmds db₀ hist db)
    (hissue : (cmds i).Issues (flying hist i) (.zrem .leases slot))
    (hsafe : Harmless cmds db₀ hist db i (.zrem .leases slot)) :
    Exclusive cmds db₀ (⟨i, ⟨.zrem .leases slot, ()⟩, db⟩ :: hist)
      (exec (.zrem .leases slot) db).2 := by
  refine inv.of_zrem rfl (fun id expiry hlive => ⟨rfl, ?_⟩) (by simp [exec]) (by simp [exec])
  obtain ⟨hw, y, hy, hle⟩ := inv.live slot id expiry hlive
  have hsafe := hsafe y hy
  obtain ⟨now, id', ttl_ms, hcmd⟩ | ⟨n, id', now, hcmd⟩ := hissue.zrem_leases
  · rw [hcmd] at hsafe
    simp [hcmd, NativeCmd.ends, hle.trans hsafe]
  · rw [hcmd] at hsafe
    obtain rfl : id = id' := Option.some.inj (hw.symm.trans hsafe)
    simp [hcmd, NativeCmd.ends]

/-- A harmless command of a client keeps the pool exclusive. -/
theorem Exclusive.step (inv : Exclusive cmds db₀ hist db) {c : Cmd σ}
    (hissue : (cmds i).Issues (flying hist i) c) (hsafe : Harmless cmds db₀ hist db i c) :
    Exclusive cmds db₀ (⟨i, ⟨c, (exec c db).1⟩, db⟩ :: hist) (exec c db).2 := by
  cases c with
  | zscore key slot | zrangebyscore key max | zrangeWithScores key | get key | set key value
  | del key | publish msg =>
    exact inv.of_same_leases (by simp) (fun _ => rfl) (fun _ => rfl) fun _ h h' => absurd h' h
  | zaddNX key slot x =>
    cases key with
    | leases => exact absurd hissue NativeCmd.not_issues_zaddNX_leases
    | available =>
      rw [exec]
      by_cases hnone : db.score .available slot = none
      · rw [if_pos hnone]
        refine inv.of_same_leases (by simp) (fun _ => rfl) (by simp) fun s hav hnot => ?_
        obtain rfl : s = slot := by
          by_contra hs
          exact hav (by simp [hs, hnot])
        exact hsafe
      · rw [if_neg hnone]
        exact inv.of_same_leases (by simp) (fun _ => rfl) (fun _ => rfl) fun _ h h' => absurd h' h
  | zadd key slot x =>
    cases key with
    | available =>
      refine inv.of_same_leases (by simp) (fun _ => rfl) (by simp [exec]) fun s hav hnot => ?_
      obtain rfl : s = slot := by
        by_contra hs
        exact hav (by simp [exec, hs, hnot])
      exact hsafe
    | leases => exact inv.step_lease hissue hsafe
  | zrem key slot =>
    cases key with
    | available => exact absurd hissue NativeCmd.not_issues_zrem_available
    | leases => exact inv.step_unlease hissue hsafe
  | zpopmin key =>
    cases key with
    | leases => exact absurd hissue NativeCmd.not_issues_zpopmin_leases
    | available =>
      cases hleast : (db.sets .available).least with
      | none =>
        have hexec : exec (.zpopmin .available) db = (none, db) := by simp [exec, hleast]
        rw [hexec]
        exact inv.of_same_leases (by simp) (fun _ => rfl) (fun _ => rfl) fun _ h h' => absurd h' h
      | some entry =>
        obtain ⟨slot, x⟩ := entry
        have hexec : exec (.zpopmin .available) db =
            (some (slot, x), db.zrem .available slot) := by simp [exec, hleast]
        rw [hexec]
        exact inv.of_pop rfl (SortedSet.score_of_least hleast) (by simp) (by simp)

section Run

variable [Zero σ] {hist : List (NativeStep ι σ)} {threads : ι → RedisProgram σ Unit} {db : Redis σ}

theorem exclusive_of_run (h₀ : Consistent db₀)
    (run : Interleaved (fun _ => exec) (fun i => (cmds i).program) db₀ hist threads db)
    (hsafe : HarmlessRun cmds db₀ hist) : Exclusive cmds db₀ hist db := by
  induction run with
  | start => exact .start h₀
  | @step hist threads db run i c k hi ih =>
    have hfollows := run.follows (fun i => (cmds i).follows) i
    rw [hi] at hfollows
    exact (ih hsafe.2).step hfollows.1 hsafe.1

/-- In a run without harm, a slot that a claim pops is held by nobody. -/
theorem native_mutual_exclusion (h₀ : Consistent db₀)
    (run : Interleaved (fun _ => exec) (fun i => (cmds i).program) db₀ hist threads db)
    (hsafe : HarmlessRun cmds db₀ hist) :
    ∀ newer (st : NativeStep ι σ) older slot x, hist = newer ++ st :: older →
      st.event = ⟨.zpopmin .available, some (slot, x)⟩ → Unheld cmds db₀ older slot := by
  induction run with
  | start =>
    intro newer st older slot x heq
    simp at heq
  | @step hist threads db run i c k hi ih =>
    intro newer st older slot x heq hev
    cases newer with
    | cons st' newer =>
      obtain ⟨-, rfl⟩ := List.cons.inj heq
      exact ih hsafe.2 newer st older slot x rfl hev
    | nil =>
      obtain ⟨rfl, rfl⟩ := List.cons.inj heq
      have inv := exclusive_of_run h₀ run hsafe.2
      obtain rfl : c = .zpopmin .available := congrArg Event.op hev
      have hmem : db.score .available slot = some x :=
        score_of_zpopmin (eq_of_heq (Event.mk.inj hev).2)
      obtain ⟨hnone, hnofly⟩ := inv.offered slot (by simp [hmem])
      refine ⟨hnofly, fun id expiry hlive => ?_⟩
      obtain ⟨-, y, hy, -⟩ := inv.live slot id expiry hlive
      rw [hnone] at hy
      cases hy

end Run

end Tenures

/-- A pool whose slot 0 has a lease that expired at 100. -/
def expiredPool : Redis ℕ := (Redis.empty.zadd .leases "0" 100).set (.owner "0") "old"

/-- Two instances that claim at 200 for 60 000 ms. -/
def rivals (b : Bool) : NativeCmd ℕ := .claim 200 (if b then "b" else "a") 60000

theorem expiredPool_consistent : Consistent expiredPool where
  disjoint slot := by simp [expiredPool]
  owned slot := by
    by_cases h : slot = "0" <;> simp [expiredPool, h]

/-- The claim of "a" sweeps slot 0, and that of "b", which began in between, pops it when nobody
holds it any more. -/
theorem native_one_claim :
    Unheld rivals expiredPool (play (fun _ => exec) (fun i => (rivals i).program) expiredPool
      [false, false, true, false, false]).1 "0" := by
  have hrun := interleaved_play (fun _ => exec) (fun i => (rivals i).program) expiredPool
    [true, false, false, true, false, false]
  refine native_mutual_exclusion expiredPool_consistent hrun ?_ [] _ _ "0" 200 rfl rfl
  refine ⟨trivial, trivial, ⟨rfl, fun b => by cases b <;> decide⟩, trivial,
    fun expiry hexp => ?_, trivial, trivial⟩
  have hscore : expiredPool.score .leases "0" = some 100 := by decide
  obtain rfl := Option.some.inj (hscore.symm.trans hexp)
  exact (by decide : 100 ≤ 200)

/-- Both claims read the expired lease; then "a" gets slot 0, and the sweep of "b" takes it away. -/
def rivalTurns : List Bool :=
  [true, true, true, true, false, false, false, false, false, false, false, true]

/-- Without the condition on the steps, a claim can pop a slot that another instance holds. -/
theorem native_double_claim :
    ¬ ∀ (cmds : Bool → NativeCmd ℕ) (db₀ : Redis ℕ), Consistent db₀ →
      ∀ hist threads db, Interleaved (fun _ => exec)
        (fun i => (cmds i).program) db₀ hist threads db →
        ∀ newer (st : NativeStep Bool ℕ) older slot x, hist = newer ++ st :: older →
          st.event = ⟨.zpopmin .available, some (slot, x)⟩ → Unheld cmds db₀ older slot := by
  intro h
  have hrun := interleaved_play (fun _ => exec) (fun i => (rivals i).program) expiredPool rivalTurns
  have hunheld := h rivals expiredPool expiredPool_consistent _ _ _ hrun [] _ _ "0" 200 rfl rfl
  exact hunheld.2 "a" 60200 (by decide)

end Aerosuite.Pool
