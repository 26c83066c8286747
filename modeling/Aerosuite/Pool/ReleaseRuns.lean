import Aerosuite.Pool.NativeRuns

/-! Runs of one release next to any number of claims.  The release takes away the owner, then the
lease, and offers the slot last, so a claim can pop the slot only when the release has done all of
it.  While no lease expires, no sweep reads the slot, and so nobody takes it from the claim. -/

namespace Aerosuite.Pool

open Program

variable {ι σ : Type}

/-- How far a command has come.  A claim reads the expired leases, sweeps them, pops a slot, leases
it, and sets its owner.  A release confirms the owner, deletes it, removes the lease, and offers the
slot. -/
inductive Phase where
  | start
  | sweeping (expired : List String)
  | popped (slot : String)
  | leased (slot : String)
  | confirmed
  | disowned
  | unleased
  | done

namespace NativeCmd

/-- What a claim or a release may issue in a phase. -/
def Allows [Add σ] : NativeCmd σ → Phase → Cmd σ → Prop
  | .claim now _ _, .start, c => c = .zrangebyscore .leases now
  | .claim now _ _, .sweeping expired, c => c = .zpopmin .available ∨
      ∃ slot ∈ expired,
        c = .zrem .leases slot ∨ c = .zadd .available slot now ∨ c = .del (.owner slot)
  | .claim now _ ttl_ms, .popped slot, c => c = .zadd .leases slot (now + ttl_ms)
  | .claim _ id _, .leased slot, c => c = .set (.owner slot) id
  | .release slot _ _, .start, c => c = .get (.owner (slotStr slot))
  | .release slot _ _, .confirmed, c => c = .del (.owner (slotStr slot))
  | .release slot _ _, .disowned, c => c = .zrem .leases (slotStr slot)
  | .release slot _ now, .unleased, c => c = .zadd .available (slotStr slot) now
  | .claim .., .done, c | .release .., .done, c => ∃ msg, c = .publish msg
  | _, _, _ => False

/-- The phase after one more event. -/
def next (cmd : NativeCmd σ) (phase : Phase) (ev : Event (Cmd σ) Cmd.Reply) : Phase :=
  match phase, ev with
  | .start, ⟨.zrangebyscore .leases _, expired⟩ => .sweeping expired
  | .sweeping _, ⟨.zpopmin .available, some (slot, _)⟩ => .popped slot
  | .sweeping _, ⟨.zpopmin .available, none⟩ => .done
  | .popped slot, ⟨.zadd .leases _ _, _⟩ => .leased slot
  | .leased _, ⟨.set _ _, _⟩ => .done
  | .start, ⟨.get _, owner⟩ => if owner = cmd.instanceId then .confirmed else .done
  | .confirmed, ⟨.del _, _⟩ => .disowned
  | .disowned, ⟨.zrem .leases _, _⟩ => .unleased
  | .unleased, ⟨.zadd .available _ _, _⟩ => .done
  | phase, _ => phase

end NativeCmd

section Protocol

variable [Zero σ] [Add σ]

theorem claim_followsTo (now : σ) (id : String) (ttl_ms : σ) :
    FollowsTo (NativeCmd.claim now id ttl_ms).Allows (NativeCmd.claim now id ttl_ms).next
      (fun phase _ => phase = .done) .start (NativeCmd.claim now id ttl_ms).program := by
  simp only [NativeCmd.program, cmdClaim, perform_bind, call_bind, bind_assoc]
  refine ⟨rfl, fun expired => ?_⟩
  refine FollowsTo.bind (FollowsTo.forEach (I := (· = .sweeping expired)) rfl ?_) ?_
  · rintro slot hslot phase rfl
    simp only [cmdSweepSlot, perform_bind]
    exact ⟨.inr ⟨slot, hslot, .inl rfl⟩, fun _ => ⟨.inr ⟨slot, hslot, .inr (.inl rfl)⟩, fun _ =>
      ⟨.inr ⟨slot, hslot, .inr (.inr rfl)⟩, fun _ => rfl⟩⟩⟩
  · rintro phase _ rfl
    refine ⟨.inl rfl, fun result => ?_⟩
    cases result with
    | none => rfl
    | some entry => exact ⟨rfl, fun _ => ⟨rfl, fun _ => ⟨⟨_, rfl⟩, fun _ => rfl⟩⟩⟩

theorem release_followsTo (slot : ℕ) (id : String) (now : σ) :
    FollowsTo (NativeCmd.release slot id now).Allows (NativeCmd.release slot id now).next
      (fun phase _ => phase = .done) .start (NativeCmd.release slot id now).program := by
  simp only [NativeCmd.program, cmdRelease, perform_bind, call_bind]
  refine ⟨rfl, fun owner => ?_⟩
  cases owner with
  | none => rfl
  | some o =>
    by_cases ho : o = id
    · subst ho
      simp only [ne_eq, not_true, if_false, NativeCmd.next, NativeCmd.instanceId, if_true]
      exact ⟨rfl, fun _ => ⟨rfl, fun _ => ⟨rfl, fun _ => ⟨⟨_, rfl⟩, fun _ => rfl⟩⟩⟩⟩
    · simp only [ne_eq, ho, not_false_iff, if_true, NativeCmd.next, NativeCmd.instanceId,
        Option.some.injEq, if_false]
      rfl

end Protocol

/-- The scores and the owner of a slot. -/
structure Redis.At [LinearOrder σ] (db : Redis σ) (slot : String) (available lease : Option σ)
    (owner : Option String) : Prop where
  available : db.score .available slot = available
  lease : db.score .leases slot = lease
  owner : db.owner slot = owner

section Takers

variable [LinearOrder σ] (releaser : ι) (slot : String) {hist : List (NativeStep ι σ)}
  {st : NativeStep ι σ}

/-- The clients that have popped the slot, the last one first. -/
def takers (hist : List (NativeStep ι σ)) : List ι :=
  hist.filterMap fun st =>
    match st.event with
    | ⟨.zpopmin .available, some (s, _)⟩ => if s = slot then some st.who else none
    | _ => none

/-- The expiry times of the leases that were written in a run. -/
def newExpiries (hist : List (NativeStep ι σ)) : List σ :=
  hist.filterMap fun st =>
    match st.event.op with
    | .zadd .leases _ expiry => some expiry
    | _ => none

/-- The release has offered the slot. -/
def Offered (hist : List (NativeStep ι σ)) : Prop :=
  ∃ st ∈ hist, st.who = releaser ∧ ∃ since, st.event.op = .zadd .available slot since

variable {slot}

theorem takers_cons_of_ne (hpop : ∀ x, st.event ≠ ⟨.zpopmin .available, some (slot, x)⟩) :
    takers slot (st :: hist) = takers slot hist := by
  refine List.filterMap_cons_none ?_
  obtain ⟨who, ⟨op, reply⟩, before⟩ := st
  dsimp only
  split
  · next s x heq =>
    split
    · next hs =>
      subst hs
      exact absurd heq (hpop x)
    · rfl
  · rfl

theorem takers_cons_of_pop {x : σ} (hev : st.event = ⟨.zpopmin .available, some (slot, x)⟩) :
    takers slot (st :: hist) = st.who :: takers slot hist := by
  refine List.filterMap_cons_some ?_
  rw [hev]
  exact if_pos rfl

end Takers

section Guard

variable [DecidableEq ι] [LinearOrder σ] (cmds : ι → NativeCmd σ) (releaser : ι)
  (slot id : String)

/-- How far a client has come. -/
def phase (hist : List (NativeStep ι σ)) (i : ι) : Phase :=
  protocolState (fun i => (cmds i).next) (fun _ => .start) hist i

section

variable {cmds} {hist : List (NativeStep ι σ)} {st : NativeStep ι σ} {i : ι}

theorem phase_cons_self :
    phase cmds (st :: hist) st.who = (cmds st.who).next (phase cmds hist st.who) st.event :=
  if_pos rfl

theorem phase_cons {ph : Phase} {ev : Event (Cmd σ) Cmd.Reply} {db : Redis σ}
    (hphase : phase cmds hist i = ph) :
    phase cmds (⟨i, ev, db⟩ :: hist) i = (cmds i).next ph ev := by
  subst hphase
  exact phase_cons_self

theorem phase_cons_of_ne (hi : i ≠ st.who) : phase cmds (st :: hist) i = phase cmds hist i :=
  if_neg (Ne.symm hi)

end

variable [Add σ]

/-- What the slot goes through: the release takes away its owner and its lease and offers it, and
then one claim pops it, leases it and sets its owner. -/
inductive Stage (hist : List (NativeStep ι σ)) (db : Redis σ) : Prop
  | held {expiry : σ} (start : phase cmds hist releaser = .start ∨
        phase cmds hist releaser = .confirmed)
      (untaken : takers slot hist = []) (at_slot : db.At slot none (some expiry) (some id))
  | disowned {expiry : σ} (begun : phase cmds hist releaser = .disowned)
      (untaken : takers slot hist = []) (at_slot : db.At slot none (some expiry) none)
  | unleased (begun : phase cmds hist releaser = .unleased) (untaken : takers slot hist = [])
      (at_slot : db.At slot none none none)
  | offered {since : σ} (ended : phase cmds hist releaser = .done) (untaken : takers slot hist = [])
      (at_slot : db.At slot (some since) none none) (offer : Offered releaser slot hist)
  | popped {i : ι} (ended : phase cmds hist releaser = .done) (taken : takers slot hist = [i])
      (taker : phase cmds hist i = .popped slot) (at_slot : db.At slot none none none)
  | leased {i : ι} {now : σ} {taker_id : String} {ttl_ms : σ}
      (ended : phase cmds hist releaser = .done) (taken : takers slot hist = [i])
      (taker : phase cmds hist i = .leased slot) (claim : cmds i = .claim now taker_id ttl_ms)
      (at_slot : db.At slot none (some (now + ttl_ms)) none)
  | owned {i : ι} {now : σ} {taker_id : String} {ttl_ms : σ}
      (ended : phase cmds hist releaser = .done) (taken : takers slot hist = [i])
      (taker : phase cmds hist i = .done) (claim : cmds i = .claim now taker_id ttl_ms)
      (at_slot : db.At slot none (some (now + ttl_ms)) (some taker_id))

/-- What holds of the slot throughout the run. -/
structure Guarded (hist : List (NativeStep ι σ)) (db : Redis σ) : Prop where
  stage : Stage cmds releaser slot id hist db
  /-- No sweep has read the slot. -/
  spared : ∀ i expired, phase cmds hist i = .sweeping expired → slot ∉ expired
  hands : ∀ i, phase cmds hist i = .popped slot ∨ phase cmds hist i = .leased slot →
    i ∈ takers slot hist
  /-- No claim finds the lease of the slot expired. -/
  unexpired : ∀ expiry, db.score .leases slot = some expiry →
    ∀ i now id ttl_ms, cmds i = .claim now id ttl_ms → now < expiry

section Frame

variable {cmds releaser slot id} {hist : List (NativeStep ι σ)} {st : NativeStep ι σ}
  {db db' : Redis σ} {i : ι}

theorem Stage.taker_phase (h : Stage cmds releaser slot id hist db) (hi : i ∈ takers slot hist) :
    phase cmds hist i = .popped slot ∨ phase cmds hist i = .leased slot ∨
      phase cmds hist i = .done := by
  cases h with
  | held _ htakers | disowned _ htakers | unleased _ htakers | offered _ htakers =>
    rw [htakers] at hi
    cases hi
  | popped _ htakers hj | leased _ htakers hj | owned _ htakers hj =>
    rw [htakers] at hi
    obtain rfl := List.mem_singleton.mp hi
    simp [hj]

theorem Stage.of_available (h : Stage cmds releaser slot id hist db) {since : σ}
    (havailable : db.score .available slot = some since) :
    phase cmds hist releaser = .done ∧ takers slot hist = [] ∧ db.score .leases slot = none ∧
      db.owner slot = none ∧ Offered releaser slot hist := by
  cases h with
  | offered hended hnone hat hoffer => exact ⟨hended, hnone, hat.lease, hat.owner, hoffer⟩
  | held _ _ hat | disowned _ _ hat | unleased _ _ hat | popped _ _ _ hat | leased _ _ _ _ hat
  | owned _ _ _ _ hat => cases hat.available.symm.trans havailable

/-- Where the slot is while the release is under way. -/
theorem Stage.of_releaser (h : Stage cmds releaser slot id hist db) :
    match phase cmds hist releaser with
    | .start | .confirmed =>
      takers slot hist = [] ∧ ∃ expiry, db.At slot none (some expiry) (some id)
    | .disowned => takers slot hist = [] ∧ ∃ expiry, db.At slot none (some expiry) none
    | .unleased => takers slot hist = [] ∧ db.At slot none none none
    | _ => True := by
  cases h with
  | held hstart hnone hat =>
    rcases hstart with hstart | hstart <;> rw [hstart] <;> exact ⟨hnone, _, hat⟩
  | disowned hbegun hnone hat =>
    rw [hbegun]
    exact ⟨hnone, _, hat⟩
  | unleased hbegun hnone hat =>
    rw [hbegun]
    exact ⟨hnone, hat⟩
  | offered hended | popped hended | leased hended | owned hended =>
    rw [hended]
    trivial

theorem Stage.one_taker (h : Stage cmds releaser slot id hist db) :
    (takers slot hist).length ≤ 1 := by
  cases h with
  | held _ htakers | disowned _ htakers | unleased _ htakers | offered _ htakers
  | popped _ htakers | leased _ htakers | owned _ htakers => simp [htakers]

theorem Stage.of_popped (h : Stage cmds releaser slot id hist db) (hi : i ∈ takers slot hist)
    (hphase : phase cmds hist i = .popped slot) :
    phase cmds hist releaser = .done ∧ takers slot hist = [i] ∧ db.At slot none none none := by
  cases h with
  | held _ hnone | disowned _ hnone | unleased _ hnone | offered _ hnone =>
    rw [hnone] at hi
    cases hi
  | popped hended htaken _ hat =>
    obtain rfl := List.mem_singleton.mp (htaken ▸ hi)
    exact ⟨hended, htaken, hat⟩
  | leased _ htaken hj | owned _ htaken hj =>
    obtain rfl := List.mem_singleton.mp (htaken ▸ hi)
    cases hphase.symm.trans hj

theorem Stage.of_leased (h : Stage cmds releaser slot id hist db) (hi : i ∈ takers slot hist)
    (hphase : phase cmds hist i = .leased slot) :
    phase cmds hist releaser = .done ∧ takers slot hist = [i] ∧ ∃ now taker_id ttl_ms,
      cmds i = .claim now taker_id ttl_ms ∧ db.At slot none (some (now + ttl_ms)) none := by
  cases h with
  | held _ hnone | disowned _ hnone | unleased _ hnone | offered _ hnone =>
    rw [hnone] at hi
    cases hi
  | leased hended htaken _ hclaim hat =>
    obtain rfl := List.mem_singleton.mp (htaken ▸ hi)
    exact ⟨hended, htaken, _, _, _, hclaim, hat⟩
  | popped _ htaken hj | owned _ htaken hj =>
    obtain rfl := List.mem_singleton.mp (htaken ▸ hi)
    cases hphase.symm.trans hj

/-- A step that changes neither the slot nor the phase of a client that matters for it. -/
theorem Stage.frame (h : Stage cmds releaser slot id hist db)
    (htakers : takers slot (st :: hist) = takers slot hist)
    (hphase : ∀ i, i = releaser ∨ i ∈ takers slot hist →
      phase cmds (st :: hist) i = phase cmds hist i)
    (hdb : ∀ {available lease owner}, db.At slot available lease owner →
      db'.At slot available lease owner) :
    Stage cmds releaser slot id (st :: hist) db' := by
  have hreleaser := hphase releaser (.inl rfl)
  cases h with
  | held hstart hnone hat =>
    exact .held (by rwa [hreleaser]) (htakers.trans hnone) (hdb hat)
  | disowned hbegun hnone hat =>
    exact .disowned (hreleaser.trans hbegun) (htakers.trans hnone) (hdb hat)
  | unleased hbegun hnone hat =>
    exact .unleased (hreleaser.trans hbegun) (htakers.trans hnone) (hdb hat)
  | offered hended hnone hat hoffer =>
    obtain ⟨st', hst', hwho⟩ := hoffer
    exact .offered (hreleaser.trans hended) (htakers.trans hnone) (hdb hat)
      ⟨st', List.mem_cons_of_mem _ hst', hwho⟩
  | @popped j hended htaken hj hat =>
    have htaker := hphase j (.inr (by simp [htaken]))
    exact .popped (hreleaser.trans hended) (htakers.trans htaken) (htaker.trans hj) (hdb hat)
  | @leased j _ _ _ hended htaken hj hclaim hat =>
    have htaker := hphase j (.inr (by simp [htaken]))
    exact .leased (hreleaser.trans hended) (htakers.trans htaken) (htaker.trans hj) hclaim (hdb hat)
  | @owned j _ _ _ hended htaken hj hclaim hat =>
    have htaker := hphase j (.inr (by simp [htaken]))
    exact .owned (hreleaser.trans hended) (htakers.trans htaken) (htaker.trans hj) hclaim (hdb hat)

variable (slot) in
/-- The phase of the stepping client does not concern the slot. -/
structure Aloof (phase : Phase) : Prop where
  popped : phase ≠ .popped slot
  leased : phase ≠ .leased slot
  sweeping : ∀ expired, phase = .sweeping expired → slot ∉ expired

theorem Guarded.frame (inv : Guarded cmds releaser slot id hist db)
    (hpop : ∀ x, st.event ≠ ⟨.zpopmin .available, some (slot, x)⟩)
    (hphase : phase cmds (st :: hist) st.who = phase cmds hist st.who ∨
      st.who ≠ releaser ∧ st.who ∉ takers slot hist ∧
        Aloof slot (phase cmds (st :: hist) st.who))
    (havailable : db'.score .available slot = db.score .available slot)
    (hlease : db'.score .leases slot = db.score .leases slot)
    (howner : db'.owner slot = db.owner slot) :
    Guarded cmds releaser slot id (st :: hist) db' := by
  have htakers : takers slot (st :: hist) = takers slot hist := takers_cons_of_ne hpop
  have hkept : ∀ i, phase cmds (st :: hist) i = phase cmds hist i ∨ i = st.who ∧
      st.who ≠ releaser ∧ st.who ∉ takers slot hist ∧
        Aloof slot (phase cmds (st :: hist) i) := by
    intro i
    by_cases hi : i = st.who
    · subst hi
      exact hphase.imp_right fun h => ⟨rfl, h⟩
    · exact .inl (phase_cons_of_ne hi)
  refine ⟨inv.stage.frame htakers (fun i hi => ?_) fun hat => ?_, fun i expired hi => ?_,
    fun i hi => ?_, fun expiry hexp => inv.unexpired expiry (hlease ▸ hexp)⟩
  · rcases hkept i with heq | ⟨rfl, hne, hnot, -⟩
    · exact heq
    · exact absurd hi (not_or.mpr ⟨hne, hnot⟩)
  · exact ⟨havailable.trans hat.available, hlease.trans hat.lease, howner.trans hat.owner⟩
  · rcases hkept i with heq | ⟨-, -, -, haloof⟩
    · exact inv.spared i expired (heq ▸ hi)
    · exact haloof.sweeping expired hi
  · rw [htakers]
    rcases hkept i with heq | ⟨-, -, -, haloof⟩
    · exact inv.hands i (heq ▸ hi)
    · exact absurd hi (not_or.mpr ⟨haloof.popped, haloof.leased⟩)

/-- A step that takes the slot to its next stage. -/
theorem Guarded.advance (inv : Guarded cmds releaser slot id hist db)
    (hstage : Stage cmds releaser slot id (st :: hist) db')
    (hsweep : ∀ expired, phase cmds (st :: hist) st.who ≠ .sweeping expired)
    (hhands : phase cmds (st :: hist) st.who = .popped slot ∨
      phase cmds (st :: hist) st.who = .leased slot → st.who ∈ takers slot (st :: hist))
    (hsub : takers slot hist ⊆ takers slot (st :: hist))
    (hunexpired : ∀ expiry, db'.score .leases slot = some expiry →
      ∀ i now id ttl_ms, cmds i = .claim now id ttl_ms → now < expiry) :
    Guarded cmds releaser slot id (st :: hist) db' := by
  refine ⟨hstage, fun j expired hj => ?_, fun j hj => ?_, hunexpired⟩
  · by_cases hji : j = st.who
    · subst hji
      exact absurd hj (hsweep expired)
    · exact inv.spared j expired ((phase_cons_of_ne hji).symm.trans hj)
  · by_cases hji : j = st.who
    · subst hji
      exact hhands hj
    · rw [phase_cons_of_ne hji] at hj
      exact hsub (inv.hands j hj)

theorem aloof_done : Aloof slot .done :=
  ⟨fun h => (by cases h), fun h => (by cases h), fun _ h => (by cases h)⟩

/-- A client that has not popped the slot is in no phase that matters for it. -/
theorem Guarded.not_taker (inv : Guarded cmds releaser slot id hist db)
    (hi : phase cmds hist i = .start ∨ (∃ expired, phase cmds hist i = .sweeping expired) ∨
      ∃ s ≠ slot, phase cmds hist i = .popped s ∨ phase cmds hist i = .leased s) :
    i ∉ takers slot hist := by
  intro hmem
  have htaker := inv.stage.taker_phase hmem
  rcases hi with hi | ⟨expired, hi⟩ | ⟨s, hs, hi | hi⟩ <;> rw [hi] at htaker
  · simp at htaker
  · simp at htaker
  · simp [hs] at htaker
  · simp [hs] at htaker

end Frame

section Claims

variable {cmds releaser slot id} {hist : List (NativeStep ι σ)} {db : Redis σ} {i : ι}
  {expired : List String}

/-- A claim reads the expired leases, and the slot is not among them. -/
theorem Guarded.read (inv : Guarded cmds releaser slot id hist db) (hne : i ≠ releaser)
    {now : σ} {taker_id : String} {ttl_ms : σ} (hi : cmds i = .claim now taker_id ttl_ms)
    (hphase : phase cmds hist i = .start) :
    Guarded cmds releaser slot id
      (⟨i, ⟨.zrangebyscore .leases now, (exec (.zrangebyscore .leases now) db).1⟩, db⟩ :: hist)
      db := by
  refine inv.frame (by simp) (.inr ⟨hne, inv.not_taker (.inl hphase), ?_⟩) rfl rfl rfl
  rw [phase_cons hphase]
  refine ⟨fun h => (by cases h), fun h => (by cases h), fun expired heq hmem => ?_⟩
  cases heq
  obtain ⟨expiry, hexp, hle⟩ := SortedSet.mem_upTo.mp hmem
  exact absurd (inv.unexpired expiry hexp i now taker_id ttl_ms hi) (not_lt.mpr hle)

/-- A claim pops a slot.  It gets the slot of the release only when that was offered. -/
theorem Guarded.pop (inv : Guarded cmds releaser slot id hist db) (hne : i ≠ releaser)
    (hphase : phase cmds hist i = .sweeping expired) :
    Guarded cmds releaser slot id
      (⟨i, ⟨.zpopmin .available, (exec (.zpopmin .available) db).1⟩, db⟩ :: hist)
      (exec (.zpopmin .available) db).2 := by
  have hnot := inv.not_taker (.inr (.inl ⟨expired, hphase⟩))
  cases hleast : (db.sets .available).least with
  | none =>
    have hexec : exec (.zpopmin .available) db = (none, db) := by simp [exec, hleast]
    rw [hexec]
    refine inv.frame (by simp) (.inr ⟨hne, hnot, ?_⟩) rfl rfl rfl
    rw [phase_cons hphase]
    exact aloof_done
  | some entry =>
    obtain ⟨s, x⟩ := entry
    have hexec : exec (.zpopmin .available) db = (some (s, x), db.zrem .available s) := by
      simp [exec, hleast]
    rw [hexec]
    by_cases hs : s = slot
    · subst hs
      have havailable : db.score .available s = some x := SortedSet.score_of_least hleast
      obtain ⟨hended, hnone, hlease, howner, -⟩ := inv.stage.of_available havailable
      have htaken : takers s (⟨i, ⟨.zpopmin .available, some (s, x)⟩, db⟩ :: hist) = [i] := by
        rw [takers_cons_of_pop rfl, hnone]
      have htaker : phase cmds (⟨i, ⟨.zpopmin .available, some (s, x)⟩, db⟩ :: hist) i =
          .popped s := phase_cons hphase
      refine inv.advance (.popped ((phase_cons_of_ne (Ne.symm hne)).trans hended) htaken htaker
        ⟨by simp, by simp [hlease], howner⟩) (fun _ h => ?_) (fun _ => by simp [htaken])
        (by simp [hnone]) fun expiry hexp => ?_
      · cases htaker.symm.trans h
      · simp [hlease] at hexp
    · refine inv.frame (by simp [hs]) (.inr ⟨hne, hnot, ?_⟩) (by simp [Ne.symm hs]) (by simp) rfl
      rw [phase_cons hphase]
      exact ⟨fun h => hs (Phase.popped.inj h), fun h => (by cases h), fun _ h => (by cases h)⟩

/-- A claim leases the slot that it has popped. -/
theorem Guarded.lease (inv : Guarded cmds releaser slot id hist db) (hne : i ≠ releaser)
    {now : σ} {taker_id : String} {ttl_ms : σ} (hi : cmds i = .claim now taker_id ttl_ms)
    {s : String} (hphase : phase cmds hist i = .popped s)
    (hfresh : ∀ j now' taker_id' ttl_ms', cmds j = .claim now' taker_id' ttl_ms' →
      now' < now + ttl_ms) :
    Guarded cmds releaser slot id
      (⟨i, ⟨.zadd .leases s (now + ttl_ms), ()⟩, db⟩ :: hist)
      (db.zadd .leases s (now + ttl_ms)) := by
  have htaker : phase cmds (⟨i, ⟨.zadd .leases s (now + ttl_ms), ()⟩, db⟩ :: hist) i =
      .leased s := phase_cons hphase
  by_cases hs : s = slot
  · subst hs
    obtain ⟨hended, htaken, hat⟩ := inv.stage.of_popped (inv.hands i (.inl hphase)) hphase
    have htakers : takers s (⟨i, ⟨.zadd .leases s (now + ttl_ms), ()⟩, db⟩ :: hist) =
        takers s hist := takers_cons_of_ne (by simp)
    refine inv.advance (.leased ((phase_cons_of_ne (Ne.symm hne)).trans hended)
      (htakers.trans htaken) htaker hi ⟨by simp [hat.available], by simp, hat.owner⟩)
      (fun _ h => ?_) (fun _ => by simp [htakers, htaken])
      (htakers.symm ▸ List.Subset.refl _) fun expiry hexp => ?_
    · cases htaker.symm.trans h
    · obtain rfl : now + ttl_ms = expiry := by simpa using hexp
      exact hfresh
  · have hnot := inv.not_taker (.inr (.inr ⟨s, hs, .inl hphase⟩))
    refine inv.frame (by simp) (.inr ⟨hne, hnot, ?_⟩) (by simp) (by simp [Ne.symm hs]) rfl
    rw [htaker]
    exact ⟨fun h => (by cases h), fun h => hs (Phase.leased.inj h), fun _ h => (by cases h)⟩

/-- A claim sets the owner of the slot that it has leased. -/
theorem Guarded.own (inv : Guarded cmds releaser slot id hist db) (hne : i ≠ releaser)
    {now : σ} {taker_id : String} {ttl_ms : σ} (hi : cmds i = .claim now taker_id ttl_ms)
    {s : String} (hphase : phase cmds hist i = .leased s) :
    Guarded cmds releaser slot id (⟨i, ⟨.set (.owner s) taker_id, ()⟩, db⟩ :: hist)
      (db.set (.owner s) taker_id) := by
  have htaker : phase cmds (⟨i, ⟨.set (.owner s) taker_id, ()⟩, db⟩ :: hist) i = .done :=
    phase_cons hphase
  by_cases hs : s = slot
  · subst hs
    obtain ⟨hended, htaken, now', id', ttl', hclaim, hat⟩ :=
      inv.stage.of_leased (inv.hands i (.inr hphase)) hphase
    cases hi.symm.trans hclaim
    have htakers : takers s (⟨i, ⟨.set (.owner s) taker_id, ()⟩, db⟩ :: hist) =
        takers s hist := takers_cons_of_ne (by simp)
    refine inv.advance (.owned ((phase_cons_of_ne (Ne.symm hne)).trans hended)
      (htakers.trans htaken) htaker hi ⟨hat.available, hat.lease, by simp⟩)
      (fun _ h => ?_) (fun _ => by simp [htakers, htaken])
      (htakers.symm ▸ List.Subset.refl _) inv.unexpired
    cases htaker.symm.trans h
  · have hnot := inv.not_taker (.inr (.inr ⟨s, hs, .inr hphase⟩))
    refine inv.frame (by simp) (.inr ⟨hne, hnot, ?_⟩) rfl rfl (by simp [Ne.symm hs])
    rw [htaker]
    exact aloof_done

end Claims

section Release

variable {cmds releaser slot id} {hist : List (NativeStep ι σ)} {db : Redis σ}

/-- A step of the release. -/
theorem Guarded.release_step (inv : Guarded cmds releaser slot id hist db)
    {ev : Event (Cmd σ) Cmd.Reply} {db' : Redis σ} {ph : Phase}
    (hphase : phase cmds (⟨releaser, ev, db⟩ :: hist) releaser = ph)
    (hph : ph = .confirmed ∨ ph = .disowned ∨ ph = .unleased ∨ ph = .done)
    (hpop : ∀ x, ev ≠ ⟨.zpopmin .available, some (slot, x)⟩)
    (hstage : takers slot (⟨releaser, ev, db⟩ :: hist) = takers slot hist →
      Stage cmds releaser slot id (⟨releaser, ev, db⟩ :: hist) db')
    (hlease : ∀ expiry, db'.score .leases slot = some expiry →
      db.score .leases slot = some expiry) :
    Guarded cmds releaser slot id (⟨releaser, ev, db⟩ :: hist) db' := by
  have htakers : takers slot (⟨releaser, ev, db⟩ :: hist) = takers slot hist :=
    takers_cons_of_ne hpop
  refine inv.advance (hstage htakers) (fun expired h => ?_) (fun h => ?_)
    (htakers.symm ▸ List.Subset.refl _) fun expiry hexp => inv.unexpired expiry (hlease expiry hexp)
  · have heq : ph = .sweeping expired := hphase.symm.trans h
    rcases hph with rfl | rfl | rfl | rfl <;> cases heq
  · have heq : ph = .popped slot ∨ ph = .leased slot :=
      h.imp hphase.symm.trans hphase.symm.trans
    rcases hph with rfl | rfl | rfl | rfl <;> rcases heq with heq | heq <;> cases heq

variable {n : ℕ} {now : σ}

/-- What a command of the release does. -/
theorem Guarded.release (inv : Guarded cmds releaser (slotStr n) id hist db)
    (hr : cmds releaser = .release n id now) {c : Cmd σ}
    (hallows : (NativeCmd.release n id now).Allows (phase cmds hist releaser) c) :
    Guarded cmds releaser (slotStr n) id (⟨releaser, ⟨c, (exec c db).1⟩, db⟩ :: hist)
      (exec c db).2 := by
  have hnext : ∀ ev, phase cmds (⟨releaser, ev, db⟩ :: hist) releaser =
      (NativeCmd.release n id now).next (phase cmds hist releaser) ev := by
    intro ev
    rw [← hr]
    exact phase_cons_self
  have hstage := inv.stage.of_releaser
  cases hphase : phase cmds hist releaser with
  | start =>
    rw [hphase] at hallows hnext hstage
    obtain rfl := hallows
    obtain ⟨hnone, expiry, hat⟩ := hstage
    have hgot : phase cmds (⟨releaser, ⟨.get (.owner (slotStr n)), db.owner (slotStr n)⟩, db⟩ ::
        hist) releaser = .confirmed := by
      rw [hnext, hat.owner]
      exact if_pos rfl
    exact inv.release_step hgot (.inl rfl) (by simp)
      (fun htakers => .held (.inr hgot) (htakers.trans hnone) hat) fun _ h => h
  | confirmed =>
    rw [hphase] at hallows hnext hstage
    obtain rfl := hallows
    obtain ⟨hnone, expiry, hat⟩ := hstage
    exact inv.release_step (hnext _) (.inr (.inl rfl)) (by simp)
      (fun htakers => .disowned (hnext _) (htakers.trans hnone)
        ⟨hat.available, hat.lease, by simp [exec]⟩) fun _ h => h
  | disowned =>
    rw [hphase] at hallows hnext hstage
    obtain rfl := hallows
    obtain ⟨hnone, expiry, hat⟩ := hstage
    exact inv.release_step (hnext _) (.inr (.inr (.inl rfl))) (by simp)
      (fun htakers => .unleased (hnext _) (htakers.trans hnone)
        ⟨by simp [exec, hat.available], by simp [exec], hat.owner⟩) (by simp [exec])
  | unleased =>
    rw [hphase] at hallows hnext hstage
    obtain rfl := hallows
    obtain ⟨hnone, hat⟩ := hstage
    have hoffered : (db.zadd .available (slotStr n) now).At (slotStr n) (some now) none none :=
      ⟨by simp, by simp [hat.lease], hat.owner⟩
    exact inv.release_step (hnext _) (.inr (.inr (.inr rfl))) (by simp)
      (fun htakers => .offered (hnext _) (htakers.trans hnone) hoffered
        ⟨_, List.mem_cons_self, rfl, now, rfl⟩) (by simp [exec, hat.lease])
  | done =>
    rw [hphase] at hallows hnext
    obtain ⟨msg, rfl⟩ := hallows
    exact inv.frame (by simp) (.inl ((hnext _).trans hphase.symm)) rfl rfl rfl
  | sweeping expired | popped s | leased s =>
    rw [hphase] at hallows
    exact hallows.elim

end Release

/-- One command releases a slot for the instance that holds it in a consistent pool.  All others are
claims. -/
structure Handover (n : ℕ) (now : σ) (db₀ : Redis σ) : Prop where
  consistent : Consistent db₀
  holder : db₀.owner (slotStr n) = some id
  release : cmds releaser = .release n id now
  claims : ∀ i, i ≠ releaser → ∃ now id ttl_ms, cmds i = .claim now id ttl_ms

/-- The clock of no claim reaches the expiry of the lease of the slot, nor that of a lease written
in the run. -/
def NoExpiry (db₀ : Redis σ) (hist : List (NativeStep ι σ)) : Prop :=
  ∀ i now id ttl_ms, cmds i = .claim now id ttl_ms →
    (∀ expiry, db₀.score .leases slot = some expiry → now < expiry) ∧
      ∀ expiry ∈ newExpiries hist, now < expiry

section Run

variable {cmds releaser slot id} {hist : List (NativeStep ι σ)} {db db₀ : Redis σ} {n : ℕ} {now : σ}

/-- What a command of a claim does. -/
theorem Guarded.claim (inv : Guarded cmds releaser slot id hist db) {i : ι} (hne : i ≠ releaser)
    {now : σ} {taker_id : String} {ttl_ms : σ} (hi : cmds i = .claim now taker_id ttl_ms)
    {c : Cmd σ}
    (hallows : (NativeCmd.claim now taker_id ttl_ms).Allows (phase cmds hist i) c)
    (hfresh : ∀ expiry ∈ newExpiries [(⟨i, ⟨c, (exec c db).1⟩, db⟩ : NativeStep ι σ)],
      ∀ j now' taker_id' ttl_ms', cmds j = .claim now' taker_id' ttl_ms' → now' < expiry) :
    Guarded cmds releaser slot id (⟨i, ⟨c, (exec c db).1⟩, db⟩ :: hist) (exec c db).2 := by
  cases hphase : phase cmds hist i with
  | start =>
    rw [hphase] at hallows
    obtain rfl := hallows
    exact inv.read hne hi hphase
  | sweeping expired =>
    rw [hphase] at hallows
    rcases hallows with rfl | ⟨s, hs, hc⟩
    · exact inv.pop hne hphase
    · have hslot : slot ≠ s := by
        rintro rfl
        exact inv.spared i expired hphase hs
      have hkept : ∀ ev : Event (Cmd σ) Cmd.Reply, (cmds i).next (.sweeping expired) ev =
          .sweeping expired → phase cmds (⟨i, ev, db⟩ :: hist) i = phase cmds hist i :=
        fun ev hev => ((phase_cons hphase).trans hev).trans hphase.symm
      rcases hc with rfl | rfl | rfl
      · exact inv.frame (by simp) (.inl (hkept _ rfl)) (by simp [exec]) (by simp [exec, hslot]) rfl
      · exact inv.frame (by simp) (.inl (hkept _ rfl)) (by simp [exec, hslot]) (by simp [exec]) rfl
      · exact inv.frame (by simp) (.inl (hkept _ rfl)) rfl rfl (by simp [exec, hslot])
  | popped s =>
    rw [hphase] at hallows
    obtain rfl := hallows
    exact inv.lease hne hi hphase (hfresh _ (by simp [newExpiries]))
  | leased s =>
    rw [hphase] at hallows
    obtain rfl := hallows
    exact inv.own hne hi hphase
  | done =>
    rw [hphase] at hallows
    obtain ⟨msg, rfl⟩ := hallows
    exact inv.frame (by simp) (.inl ((phase_cons hphase).trans hphase.symm)) rfl rfl rfl
  | confirmed | disowned | unleased =>
    rw [hphase] at hallows
    exact hallows.elim

omit [DecidableEq ι] [Add σ] in
theorem NoExpiry.of_cons {st : NativeStep ι σ} (hclock : NoExpiry cmds slot db₀ (st :: hist)) :
    NoExpiry cmds slot db₀ hist ∧ ∀ expiry ∈ newExpiries [st],
      ∀ i now id ttl_ms, cmds i = .claim now id ttl_ms → now < expiry := by
  have hold : newExpiries hist ⊆ newExpiries (st :: hist) :=
    List.filterMap_subset _ (List.subset_cons_self _ _)
  have hnew : newExpiries [st] ⊆ newExpiries (st :: hist) :=
    List.filterMap_subset _ (List.cons_subset_cons _ (List.nil_subset _))
  exact ⟨fun i now id ttl_ms hi => ⟨(hclock i now id ttl_ms hi).1,
      fun x hx => (hclock i now id ttl_ms hi).2 x (hold hx)⟩,
    fun x hx i now id ttl_ms hi => (hclock i now id ttl_ms hi).2 x (hnew hx)⟩

theorem Handover.guarded_start (setup : Handover cmds releaser id n now db₀)
    (hclock : NoExpiry cmds (slotStr n) db₀ ([] : List (NativeStep ι σ))) :
    Guarded cmds releaser (slotStr n) id [] db₀ := by
  have howned := setup.consistent.owned (slotStr n)
  rw [setup.holder] at howned
  obtain ⟨expiry, hexpiry⟩ := Option.isSome_iff_exists.mp howned.symm
  have havailable : db₀.score .available (slotStr n) = none :=
    (setup.consistent.disjoint (slotStr n)).resolve_right (by simp [hexpiry])
  refine ⟨.held (.inl rfl) rfl ⟨havailable, hexpiry, setup.holder⟩, fun i expired h => ?_,
    fun i h => ?_, fun expiry' hexp i now id ttl_ms hi =>
      (hclock i now id ttl_ms hi).1 expiry' hexp⟩
  · cases h
  · rcases h with h | h <;> cases h

variable [Zero σ] {threads : ι → RedisProgram σ Unit}

theorem Handover.followsTo (setup : Handover cmds releaser id n now db₀) (i : ι) :
    FollowsTo (cmds i).Allows (cmds i).next (fun phase _ => phase = .done) .start
      (cmds i).program := by
  by_cases hi : i = releaser
  · rw [hi, setup.release]
    exact release_followsTo n id now
  · obtain ⟨now', id', ttl_ms, hclaim⟩ := setup.claims i hi
    rw [hclaim]
    exact claim_followsTo now' id' ttl_ms

theorem guarded_of_run (setup : Handover cmds releaser id n now db₀)
    (run : Interleaved (fun _ => exec) (fun i => (cmds i).program) db₀ hist threads db)
    (hclock : NoExpiry cmds (slotStr n) db₀ hist) :
    Guarded cmds releaser (slotStr n) id hist db := by
  induction run with
  | start => exact setup.guarded_start hclock
  | @step hist threads db run i c k hi ih =>
    have hfollows := run.followsTo setup.followsTo i
    rw [hi] at hfollows
    obtain ⟨hclock, hfresh⟩ := hclock.of_cons
    have inv := ih hclock
    by_cases hne : i = releaser
    · subst hne
      refine inv.release setup.release ?_
      rw [← setup.release]
      exact hfollows.1
    · obtain ⟨now', id', ttl_ms, hclaim⟩ := setup.claims i hne
      exact inv.claim hne hclaim (hclaim ▸ hfollows.1) hfresh

theorem offered_of_pop (setup : Handover cmds releaser id n now db₀)
    (run : Interleaved (fun _ => exec) (fun i => (cmds i).program) db₀ hist threads db)
    (hclock : NoExpiry cmds (slotStr n) db₀ hist) :
    ∀ newer (st : NativeStep ι σ) older since, hist = newer ++ st :: older →
      st.event = ⟨.zpopmin .available, some (slotStr n, since)⟩ →
        Offered releaser (slotStr n) older := by
  induction run with
  | start =>
    intro newer st older since heq
    simp at heq
  | @step hist threads db run i c k hi ih =>
    intro newer st older since heq hev
    cases newer with
    | cons st' newer =>
      obtain ⟨-, rfl⟩ := List.cons.inj heq
      exact ih hclock.of_cons.1 newer st older since rfl hev
    | nil =>
      obtain ⟨rfl, rfl⟩ := List.cons.inj heq
      obtain rfl : c = .zpopmin .available := congrArg Event.op hev
      have havailable : db.score .available (slotStr n) = some since :=
        score_of_zpopmin (eq_of_heq (Event.mk.inj hev).2)
      obtain ⟨-, -, -, -, hoffered⟩ :=
        (guarded_of_run setup run hclock.of_cons.1).stage.of_available havailable
      exact hoffered

theorem done_of_ended (setup : Handover cmds releaser id n now db₀)
    (run : Interleaved (fun _ => exec) (fun i => (cmds i).program) db₀ hist threads db) {i : ι}
    (hended : (threads i).nextOp = none) : phase cmds hist i = .done := by
  have hfollows := run.followsTo setup.followsTo i
  cases hthread : threads i with
  | ret a =>
    rw [hthread] at hfollows
    exact hfollows
  | call e k =>
    rw [hthread] at hended
    cases hended

/-- No claim pops the slot before the release has offered it, at most one claim does so at all, and
in the end the slot is free without an owner or held by that claim. -/
theorem release_protects_claims (setup : Handover cmds releaser id n now db₀)
    (run : Interleaved (fun _ => exec) (fun i => (cmds i).program) db₀ hist threads db)
    (hclock : NoExpiry cmds (slotStr n) db₀ hist) :
    (∀ newer (st : NativeStep ι σ) older since, hist = newer ++ st :: older →
      st.event = ⟨.zpopmin .available, some (slotStr n, since)⟩ →
        Offered releaser (slotStr n) older) ∧
    (takers (slotStr n) hist).length ≤ 1 ∧
    ((∀ i, (threads i).nextOp = none) →
      (takers (slotStr n) hist = [] ∧ ∃ since, db.At (slotStr n) (some since) none none) ∨
      ∃ i claimed taker_id ttl_ms, takers (slotStr n) hist = [i] ∧
        cmds i = .claim claimed taker_id ttl_ms ∧
        db.At (slotStr n) none (some (claimed + ttl_ms)) (some taker_id)) := by
  have inv := guarded_of_run setup run hclock
  refine ⟨offered_of_pop setup run hclock, inv.stage.one_taker, fun hended => ?_⟩
  have hreleaser := done_of_ended setup run (hended releaser)
  cases inv.stage with
  | held hphase =>
    rw [hreleaser] at hphase
    simp at hphase
  | disowned hphase | unleased hphase => cases hreleaser.symm.trans hphase
  | offered _ hnone hat => exact .inl ⟨hnone, _, hat⟩
  | popped _ _ hphase _ | leased _ _ hphase _ _ =>
    cases (done_of_ended setup run (hended _)).symm.trans hphase
  | owned _ htaken _ hclaim hat => exact .inr ⟨_, _, _, _, htaken, hclaim, hat⟩

end Run

end Guard

/-- A pool whose slot 0 "A" holds until 1000. -/
def leasedPool : Redis ℕ := (Redis.empty.zadd .leases "0" 1000).set (.owner "0") "A"

/-- "A" releases slot 0, and "b" claims a slot. -/
def handover (b : Bool) : NativeCmd ℕ :=
  if b then .release 0 "A" 150 else .claim 200 "b" 60000

/-- The claim looks for expired leases before the release, and pops a slot after it. -/
def handoverTurns : List Bool :=
  [false, false, false, false, true, true, true, true, true, false]

theorem handover_setup : Handover handover true "A" 0 150 leasedPool where
  consistent :=
    { disjoint := fun slot => by simp [leasedPool]
      owned := fun slot => by by_cases h : slot = "0" <;> simp [leasedPool, h] }
  holder := rfl
  release := rfl
  claims i hi := by
    obtain rfl : i = false := by simpa using hi
    exact ⟨200, "b", 60000, rfl⟩

/-- The claim gets the slot that was released, and holds it in the end. -/
theorem release_protects_claim_of_slot0 :
    ∃ i claimed taker_id ttl_ms, handover i = .claim claimed taker_id ttl_ms ∧
      (play (fun _ => exec) (fun b => (handover b).program) leasedPool handoverTurns).2.2.At
        (slotStr 0) none (some (claimed + ttl_ms)) (some taker_id) := by
  have hrun := interleaved_play (fun _ => exec) (fun b => (handover b).program) leasedPool
    handoverTurns
  have hclock : NoExpiry handover (slotStr 0) leasedPool
      (play (fun _ => exec) (fun b => (handover b).program) leasedPool handoverTurns).1 := by
    intro i now id ttl_ms hi
    cases i with
    | true => cases hi
    | false =>
      cases hi
      refine ⟨fun expiry hexp => ?_, by decide +kernel⟩
      have hscore : leasedPool.score .leases (slotStr 0) = some 1000 := by decide +kernel
      obtain rfl := Option.some.inj (hscore.symm.trans hexp)
      decide
  obtain ⟨-, -, hfinal⟩ := release_protects_claims handover_setup hrun hclock
  rcases hfinal (fun i => by cases i <;> rfl) with ⟨hnone, -⟩ | ⟨i, _, _, _, -, hclaim, hat⟩
  · exact absurd hnone (by decide +kernel)
  · exact ⟨i, _, _, _, hclaim, hat⟩

end Aerosuite.Pool
