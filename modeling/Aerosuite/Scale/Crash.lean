import Aerosuite.Pool.Native
import Aerosuite.Scale.Cleanup

/-! A client that dies while it moves a slot, or that a Redis command fails: it has issued the first
commands of its program and no more.  Between the command that removes the slot from one set and the
one that adds it to the other, the slot is in neither. -/

namespace Aerosuite.Scale

open Pool Program

/-- A command that moves a slot: the claim and the release of `aeroslot`, and the `release_slot` of
the cleanup. -/
inductive SlotMove where
  | claim (now : ℕ) (instance_id : String) (ttl_ms : ℕ)
  | release (slot : ℕ) (instance_id : String) (now : ℕ)
  | releaseSlot (slot : ℕ) (owner : String) (now : ℕ)

/-- The operations of the daemon on a pool that nobody else uses. -/
def effOn : (e : Eff) → Redis ℕ → e.Reply × Redis ℕ
  | .redis c, db => (.ok (exec c db).1, (exec c db).2)
  | e, db => (okReply e, db)

/-- The pool that a client leaves which ends after `k` commands. -/
def SlotMove.cutAfter (move : SlotMove) (k : ℕ) (db : Redis ℕ) : Redis ℕ :=
  match move with
  | .claim now instance_id ttl_ms => (cmdClaim now instance_id ttl_ms).stateAfter exec k db
  | .release slot instance_id now => (cmdRelease slot instance_id now).stateAfter exec k db
  | .releaseSlot slot owner now => (Scale.releaseSlot slot owner now false).stateAfter effOn k db

/-- The same slots are in the pool. -/
def SamePool (db db' : Redis ℕ) : Prop := ∀ slot, db'.Pooled slot ↔ db.Pooled slot

/-- A claim at `now` finds a free slot, perhaps after its sweep. -/
def Claimable (db : Redis ℕ) (now : ℕ) : Prop :=
  ∃ slot, (db.score .available slot).isSome ∨ slot ∈ (db.sets .leases).upTo now

/-- After `k` commands the client has changed which slots are in the pool: it has removed a slot and
not yet added it, or it has added a slot that was not there. -/
def SlotMove.InGap (move : SlotMove) (k : ℕ) (db : Redis ℕ) : Prop :=
  match move with
  | .claim now _ _ => k % 3 = 2 ∧ (k / 3 < ((db.sets .leases).upTo now).length ∨
      k / 3 = ((db.sets .leases).upTo now).length ∧ Claimable db now)
  | .release slot instance_id _ => k = 3 ∧ db.owner (slotStr slot) = some instance_id
  | .releaseSlot slot _ _ => k = 2 ∧ (db.score .leases (slotStr slot)).isSome ∨
      3 ≤ k ∧ ¬ db.Pooled (slotStr slot)

section SamePool

variable {db db' db'' : Redis ℕ} {slot : String} {now : ℕ}

theorem SamePool.refl (db : Redis ℕ) : SamePool db db := fun _ => Iff.rfl

theorem SamePool.iff_of_left (h : SamePool db db') : SamePool db db'' ↔ SamePool db' db'' :=
  forall_congr' fun slot => by rw [h slot]

theorem not_samePool_of_lost (h : db.Pooled slot) (h' : ¬ db'.Pooled slot) : ¬ SamePool db db' :=
  fun hsame => h' ((hsame slot).mpr h)

/-- A slot that moves from one set to the other stays in the pool. -/
theorem samePool_of_moved (h : db.Pooled slot) (x : ℕ) (key key' : SetKey) (hne : key' ≠ key) :
    SamePool db ((db.zrem key slot).zadd key' slot x) := by
  intro s
  by_cases hs : s = slot
  · subst hs
    refine iff_of_true ?_ h
    cases key' <;> simp [Redis.Pooled]
  · simp [Redis.Pooled, hs]

theorem samePool_of_scores (h : ∀ key s, db'.score key s = db.score key s) : SamePool db db' :=
  fun s => by rw [Redis.Pooled, Redis.Pooled, h, h]

end SamePool

section Claim

variable {db : Redis ℕ} {now : ℕ}

/-- A sweep that is cut short loses the slot that it has removed and not yet added. -/
theorem sweep_samePool_iff {α : Type} {rest : Unit → RedisProgram ℕ α}
    {expired : List String} {k : ℕ}
    (hnodup : expired.Nodup) (hleased : ∀ s ∈ expired, (db.score .leases s).isSome)
    (hfree : ∀ s ∈ expired, db.score .available s = none) :
    SamePool db ((forEach (cmdSweepSlot now) expired >>= rest).stateAfter exec k db) ↔
      if k < 3 * expired.length then k % 3 ≠ 1
      else SamePool db ((rest ()).stateAfter exec (k - 3 * expired.length)
        (db.sweep now expired)) := by
  induction expired generalizing db k with
  | nil => rfl
  | cons s expired ih =>
    have hpool : db.Pooled s := .inr (hleased s (by simp))
    have hmoved := samePool_of_moved hpool now .leases .available (by decide)
    simp only [forEach_cons, cmdSweepSlot, perform, call_bind, ret_bind, List.length_cons]
    rcases k with _ | _ | _ | k
    · simp [SamePool.refl]
    · rw [if_pos (by omega)]
      refine iff_of_false (not_samePool_of_lost hpool ?_) (by simp)
      simp [exec, Redis.Pooled, hfree s (by simp)]
    · rw [if_pos (by omega)]
      exact iff_of_true hmoved (by simp)
    · -- The slot is back in the pool, and the sweep goes on with the others.
      obtain ⟨hs, hnodup⟩ := List.nodup_cons.mp hnodup
      have hother : ∀ s' ∈ expired, s' ≠ s := fun s' hs' heq => hs (heq ▸ hs')
      have hrest := @ih (((db.zrem .leases s).zadd .available s now).del (.owner s)) k hnodup
        (fun s' hs' => by simpa [hother s' hs'] using hleased s' (List.mem_cons_of_mem _ hs'))
        (fun s' hs' => by simpa [hother s' hs'] using hfree s' (List.mem_cons_of_mem _ hs'))
      have hsame : SamePool db (((db.zrem .leases s).zadd .available s now).del (.owner s)) :=
        hmoved
      rw [← hsame.iff_of_left, ← hsame.iff_of_left, ← Redis.sweep_cons] at hrest
      have hlt : k + 1 + 1 + 1 < 3 * (expired.length + 1) ↔ k < 3 * expired.length := by omega
      have hsub : k + 1 + 1 + 1 - 3 * (expired.length + 1) = k - 3 * expired.length := by omega
      have hmod : (k + 1 + 1 + 1) % 3 = k % 3 := by omega
      rw [if_congr hlt rfl rfl, hsub, hmod]
      exact hrest

theorem samePool_sweep (h : Consistent db) (now : ℕ) :
    SamePool db (db.sweep now ((db.sets .leases).upTo now)) := by
  intro slot
  have hpooled := h.represents.pooled slot
  rw [(h.represents.sweep now).pooled, hpooled]
  cases db.slotState slot with
  | absent => rfl
  | free since => rfl
  | held owner expiry => simp only [SlotState.sweep]; split <;> simp

/-- A claim pops a slot after its sweep when there is one to claim. -/
theorem least_sweep_ne_none :
    ((db.sweep now ((db.sets .leases).upTo now)).sets .available).least ≠ none ↔
    Claimable db now := by
  have hscore : ∀ slot, ((db.sweep now ((db.sets .leases).upTo now)).sets .available).score slot =
      if slot ∈ (db.sets .leases).upTo now then some now else db.score .available slot :=
    Redis.available_sweep db now _
  rw [Ne, SortedSet.least_eq_none_iff, not_forall]
  refine exists_congr fun slot => ?_
  rw [hscore]
  by_cases hmem : slot ∈ (db.sets .leases).upTo now
  · simp [hmem]
  · simp [hmem, Option.isSome_iff_ne_none]

/-- What a claim does after its sweep. -/
def claimPop (now : ℕ) (instance_id : String) (ttl_ms : ℕ) : RedisProgram ℕ (Option String) := do
  let result ← redisCall (.zpopmin .available)
  match result with
  | none => pure none
  | some (s, _) =>
    redisCall (.zadd .leases s (now + ttl_ms))
    redisCall (.set (.owner s) instance_id)
    publishAsgChange s "claim" none
    pure (some s)

/-- A claim that is cut short after its sweep loses the slot that it has popped and not yet
leased. -/
theorem claimPop_samePool_iff (h : Consistent db) (now : ℕ) (instance_id : String) (ttl_ms k : ℕ) :
    SamePool db ((claimPop now instance_id ttl_ms).stateAfter exec k db) ↔
      ¬ (k = 1 ∧ (db.sets .available).least ≠ none) := by
  unfold claimPop
  rw [perform_bind]
  cases k with
  | zero => simp [SamePool.refl]
  | succ k =>
    rw [stateAfter_call]
    cases hleast : (db.sets .available).least with
    | none => simp [exec, hleast, SamePool.refl]
    | some entry =>
      obtain ⟨s, x⟩ := entry
      have hscore : db.score .available s = some x := SortedSet.score_of_least hleast
      have hpool : db.Pooled s := .inl (Option.isSome_of_eq_some hscore)
      have hmoved := samePool_of_moved hpool (now + ttl_ms) .available .leases (by decide)
      simp only [exec, hleast, perform, call_bind, ret_bind, publishAsgChange]
      rcases k with _ | _ | _ | k
      · refine iff_of_false (not_samePool_of_lost hpool ?_) (by simp)
        have hnone := (h.disjoint s).resolve_left (by simp [hscore])
        simp [Redis.Pooled, hnone]
      · exact iff_of_true hmoved (by simp)
      · exact iff_of_true hmoved (by simp)
      · refine iff_of_true ?_ (by simp)
        cases k <;> exact hmoved

theorem cmdClaim_eq (now : ℕ) (instance_id : String) (ttl_ms : ℕ) :
    cmdClaim now instance_id ttl_ms =
    .call (.zrangebyscore .leases now) fun expired =>
      forEach (cmdSweepSlot now) expired >>= fun _ => claimPop now instance_id ttl_ms := by
  unfold cmdClaim claimPop
  rw [perform_bind]
  congr 1
  funext expired
  congr 1
  funext _
  congr 1
  funext result
  cases result <;> rfl

/-- A claim that is cut short loses a slot exactly in one of its gaps. -/
theorem claim_samePool_iff (h : Consistent db) (now : ℕ) (instance_id : String) (ttl_ms k : ℕ) :
    SamePool db ((cmdClaim now instance_id ttl_ms).stateAfter exec k db) ↔
      ¬ (k % 3 = 2 ∧ (k / 3 < ((db.sets .leases).upTo now).length ∨
        k / 3 = ((db.sets .leases).upTo now).length ∧ Claimable db now)) := by
  rw [cmdClaim_eq]
  cases k with
  | zero => simp [SamePool.refl]
  | succ k =>
    have hexpired : ∀ s, s ∈ (db.sets .leases).upTo now → (db.score .leases s).isSome := by
      intro s hs
      obtain ⟨x, hx, -⟩ := SortedSet.mem_upTo.mp hs
      exact Option.isSome_of_eq_some hx
    have hfree : ∀ s, s ∈ (db.sets .leases).upTo now → db.score .available s = none := by
      intro s hs
      refine (h.disjoint s).resolve_right fun hnone => ?_
      simpa [hnone] using hexpired s hs
    have hconsistent := (h.represents.sweep now).consistent
    rw [stateAfter_call]
    refine (sweep_samePool_iff (SortedSet.upTo_nodup _ _) hexpired hfree).trans ?_
    rw [(samePool_sweep h now).iff_of_left, claimPop_samePool_iff hconsistent, least_sweep_ne_none]
    by_cases hclaim : Claimable db now
    · simp only [hclaim, and_true]
      split <;> omega
    · simp only [hclaim, and_false, or_false, not_false_iff]
      split
      · omega
      · exact iff_of_true trivial (by omega)

end Claim

section Release

variable {db : Redis ℕ}

theorem release_samePool_iff (h : Consistent db) {slot : ℕ} {instance_id : String} {now k : ℕ} :
    SamePool db ((cmdRelease slot instance_id now).stateAfter exec k db) ↔
      ¬ (k = 3 ∧ db.owner (slotStr slot) = some instance_id) := by
  unfold cmdRelease
  rw [perform_bind]
  cases k with
  | zero => simp [SamePool.refl]
  | succ k =>
    have hget : exec (.get (.owner (slotStr slot))) db = (db.owner (slotStr slot), db) := rfl
    rw [stateAfter_call, hget]
    cases howner : db.owner (slotStr slot) with
    | none => simp [SamePool.refl]
    | some o =>
      by_cases ho : o = instance_id
      · subst ho
        have hleased : (db.score .leases (slotStr slot)).isSome := by
          rw [← h.owned, howner]
          rfl
        have hfree : db.score .available (slotStr slot) = none :=
          (h.disjoint _).resolve_right fun hnone => by simp [hnone] at hleased
        have hpool : db.Pooled (slotStr slot) := .inr hleased
        have hmoved := samePool_of_moved hpool now .leases .available (by decide)
        simp only [ne_eq, not_true, if_false, perform, call_bind, ret_bind, publishAsgChange]
        rcases k with _ | _ | _ | _ | k
        · simp [SamePool.refl]
        · exact iff_of_true (samePool_of_scores fun key s => rfl) (by simp)
        · refine iff_of_false (not_samePool_of_lost hpool ?_) (by simp)
          simp [exec, Redis.Pooled, hfree]
        · exact iff_of_true hmoved (by simp)
        · refine iff_of_true ?_ (by simp)
          cases k <;> exact hmoved
      · simp [ho, SamePool.refl]

theorem releaseSlot_samePool_iff (h : Consistent db) {slot : ℕ} {owner : String} {now k : ℕ} :
    SamePool db ((releaseSlot slot owner now false).stateAfter effOn k db) ↔
      ¬ (k = 2 ∧ (db.score .leases (slotStr slot)).isSome ∨ 3 ≤ k ∧
        ¬ db.Pooled (slotStr slot)) := by
  have hvacate : SamePool db (db.vacate (slotStr slot) now) ↔ db.Pooled (slotStr slot) := by
    constructor
    · intro hsame
      refine (hsame _).mp (.inl ?_)
      simp [Redis.vacate]
    · intro hpool s
      by_cases hs : s = slotStr slot
      · subst hs
        exact iff_of_true (by simp [Redis.Pooled, Redis.vacate]) hpool
      · simp [Redis.Pooled, Redis.vacate, hs]
  rcases k with _ | _ | _ | k
  · exact iff_of_true (.refl db) (by simp)
  · show SamePool db (db.del (.owner (slotStr slot))) ↔ _
    exact iff_of_true (.refl db) (by simp)
  · show SamePool db ((db.del (.owner (slotStr slot))).zrem .leases (slotStr slot)) ↔ _
    by_cases hleased : (db.score .leases (slotStr slot)).isSome
    · have hfree := (h.disjoint (slotStr slot)).resolve_right fun hnone => by
        simp [hnone] at hleased
      refine iff_of_false (not_samePool_of_lost (.inr hleased) ?_) (by simp [hleased])
      simp [Redis.Pooled, hfree]
    · refine iff_of_true (samePool_of_scores fun key s => ?_) (by simp [hleased])
      rw [Redis.score_zrem, Redis.score_del]
      split
      · next hs =>
        rw [hs.1, hs.2]
        exact (Option.not_isSome_iff_eq_none.mp hleased).symm
      · rfl
  · have hall : (releaseSlot slot owner now false).stateAfter effOn (k + 1 + 1 + 1) db =
        db.vacate (slotStr slot) now := by
      cases k <;> rfl
    rw [hall, hvacate]
    simp

end Release

/-- A client that ends in the middle of a move leaves the same slots in the pool exactly when it
ends outside the gaps of the move. -/
theorem samePool_cutAfter_iff {db : Redis ℕ} (h : Consistent db) (move : SlotMove) (k : ℕ) :
    SamePool db (move.cutAfter k db) ↔ ¬ move.InGap k db := by
  cases move with
  | claim now instance_id ttl_ms => exact claim_samePool_iff h now instance_id ttl_ms k
  | release slot instance_id now => exact release_samePool_iff h
  | releaseSlot slot owner now => exact releaseSlot_samePool_iff h

/-- A free slot 0. -/
def freePool : Redis ℕ := Redis.empty.zadd .available "0" 0

theorem freePool_consistent : Consistent freePool where
  disjoint slot := by simp [freePool]
  owned slot := by simp [freePool]

/-- A claim that ends once its lease is registered has lost nothing. -/
theorem samePool_after_lease :
    SamePool freePool ((SlotMove.claim 200 "i-a" 60000).cutAfter 3 freePool) :=
  (samePool_cutAfter_iff freePool_consistent _ _).mpr fun h => absurd h.1 (by decide)

/-- A claim that ends right after its `ZPOPMIN` has lost the slot. -/
theorem claim_loses_slot : ¬ ∀ db, Consistent db → ∀ (move : SlotMove) (k : ℕ),
    SamePool db (move.cutAfter k db) := by
  intro h
  have hsame := h freePool freePool_consistent (.claim 200 "i-a" 60000) 2 "0"
  exact absurd hsame (by decide)

end Aerosuite.Scale
