import Aerosuite.Pool.NativeRuns
import Aerosuite.Scale.Cleanup

/-! The release of a slot by the cleanup beside `aeroslot release`.  Both delete the owner key,
remove the lease and offer the slot, but only `aeroslot` looks at the owner key first. -/

namespace Aerosuite.Scale

open Pool Program

/-- The pool, and the commands that other clients issue after each write to come. -/
abbrev SharedPool := Redis ℕ × List (List (Cmd ℕ))

/-- The pool after commands of other clients. -/
def issueAll (cmds : List (Cmd ℕ)) (db : Redis ℕ) : Redis ℕ :=
  cmds.foldl (fun db c => (exec c db).2) db

/-- A command of one client: the other clients get their turn after each write. -/
def execShared : (c : Cmd ℕ) → SharedPool → c.Reply × SharedPool
  | .get key, s => (s.1.strings key, s)
  | c, (db, gaps) =>
    let (reply, db) := exec c db
    (reply, issueAll (gaps.headD []) db, gaps.tail)

/-- The operations of the daemon where all succeed and Redis is the pool. -/
def effShared : (e : Eff) → SharedPool → e.Reply × SharedPool
  | .redis c, s =>
    let (reply, s) := execShared c s
    (.ok reply, s)
  | e, s => (okReply e, s)

/-- The pool once the other clients have issued all their commands. -/
def SharedPool.settle (s : SharedPool) : Redis ℕ := issueAll s.2.flatten s.1

/-- The cleanup's release of a slot has the effect of `aeroslot release`, where other clients issue
`gaps` after the writes. -/
def ReleaseAgrees (db : Redis ℕ) (gaps : List (List (Cmd ℕ))) (slot : ℕ) (owner : String)
    (now : ℕ) : Prop :=
  SharedPool.settle ((releaseSlot slot owner now false).run effShared (db, gaps)).2 =
    SharedPool.settle ((cmdRelease slot owner now).run execShared (db, gaps)).2

theorem settle_publish (m : AsgChangeMsg) (s : SharedPool) :
    (execShared (.publish m) s).2.settle = s.settle := by
  obtain ⟨db, gaps⟩ := s
  cases gaps with
  | nil => rfl
  | cons gap gaps => simp [SharedPool.settle, execShared, exec, issueAll]

/-- The three writes of a release. -/
def SharedPool.vacate (s : SharedPool) (slot : String) (now : ℕ) : SharedPool :=
  let s := (execShared (.del (.owner slot)) s).2
  let s := (execShared (.zrem .leases slot) s).2
  (execShared (.zadd .available slot now) s).2

theorem run_releaseSlot (slot : ℕ) (owner : String) (now : ℕ) (s : SharedPool) :
    ((releaseSlot slot owner now false).run effShared s).2 = s.vacate (slotStr slot) now := rfl

/-- `aeroslot release` writes the same when it finds its owner, and else nothing. -/
theorem settle_cmdRelease (slot : ℕ) (owner : String) (now : ℕ) (s : SharedPool) :
    SharedPool.settle ((cmdRelease slot owner now).run execShared s).2 =
      if s.1.owner (slotStr slot) = some owner then (s.vacate (slotStr slot) now).settle
      else s.settle := by
  have hget : (execShared (.get (.owner (slotStr slot))) s) = (s.1.owner (slotStr slot), s) := rfl
  rw [cmdRelease, redisCall, perform_bind, run_call, hget]
  cases s.1.owner (slotStr slot) with
  | none => rfl
  | some o =>
    by_cases ho : o = owner
    · subst ho
      simp only [ne_eq, not_true, if_false, if_true]
      exact settle_publish ⟨(Text.parseU64 (slotStr slot).toList).getD 0, "release", some o⟩
        (s.vacate (slotStr slot) now)
    · simp [ho]

/-- The cleanup's release has the effect of `aeroslot release`, whatever other clients do in
between, exactly when the owner key still names the owner that the snapshot shows. -/
theorem releaseSlot_agrees_iff (db : Redis ℕ) (slot : ℕ) (owner : String) (now : ℕ) :
    (∀ gaps, ReleaseAgrees db gaps slot owner now) ↔ db.owner (slotStr slot) = some owner := by
  simp only [ReleaseAgrees, run_releaseSlot, settle_cmdRelease]
  constructor
  · intro h
    by_contra howner
    -- Whoever takes the slot from the free ones before it is offered finds it offered again.
    have heq := h [[], [.zrem .available (slotStr slot)]]
    rw [if_neg howner] at heq
    have hscore := congrArg (fun db => Redis.score db .available (slotStr slot)) heq
    simp [SharedPool.settle, SharedPool.vacate, execShared, issueAll, exec] at hscore
  · intro howner gaps
    rw [if_pos howner]

/-- After the snapshot of `expiredPool`, a claim gets slot 0, and the cleanup takes it away. -/
theorem releaseSlot_takes_claimed :
    ¬ ∀ (cmds : Unit → NativeCmd ℕ) (db₀ : Redis ℕ), Consistent db₀ →
      ∀ hist threads db, Interleaved (fun _ => exec)
        (fun i => (cmds i).program) db₀ hist threads db →
        ∀ slot owner now, db₀.owner (slotStr slot) = some owner →
          ReleaseAgrees db [] slot owner now := by
  intro h
  have hrun := interleaved_play (fun _ => exec)
    (fun _ : Unit => (NativeCmd.claim 200 "new" 60000).program)
    expiredPool [(), (), (), (), (), (), (), ()]
  have hagrees := h (fun _ => .claim 200 "new" 60000) expiredPool expiredPool_consistent _ _ _ hrun
    0 "old" 300 rfl
  have hscore := congrArg (fun db => Redis.score db .leases "0") hagrees
  exact absurd hscore (by decide)

end Aerosuite.Scale
