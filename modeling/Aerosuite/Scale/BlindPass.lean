import Aerosuite.Scale.Grace

/-! Grace periods and failed queries of the group.  Section 2.2 drops every entry that its pass does
not confirm, and a pass whose query failed confirms none, so that the grace periods which have begun
begin anew. -/

namespace Aerosuite.Scale

open Program

namespace GracePass

/-- The query of the group failed. -/
def Blind (p : GracePass) : Prop := p.snapshot.asg_group = none ∧ p.snapshot.asg = []

/-- The pass notes when it first saw the instance. -/
def Observes (p : GracePass) (id : String) : Prop :=
  p.before.orphan_first_seen id = none ∧ p.after.orphan_first_seen id ≠ none

/-- The pass does not end the grace period of an instance that is still without lease. -/
def Waits (m p : GracePass) (grace : ℕ) (id : String) : Prop :=
  id ∉ p.snapshot.leasedOwners ∧ (p.Blind ∨ id ∈ p.snapshot.asgIds ∧ m.elapsed p id < grace)

end GracePass

/-- An entry is kept until the instance holds a lease, is known to have left the service or is
terminated, also by a pass whose query failed, and the first pass with data after the grace period
terminates the instance. -/
structure TimersSurvive (grace : ℕ) (passes : List GracePass) : Prop where
  kept : ∀ p ∈ passes, ∀ id since, p.before.orphan_first_seen id = some since →
    id ∉ p.snapshot.leasedOwners → (¬ p.Blind → id ∈ p.snapshot.asgIds) → ¬ p.Terminates id →
      p.after.orphan_first_seen id = some since
  blind : ∀ p ∈ passes, p.Blind → p.after.orphan_first_seen = p.before.orphan_first_seen
  terminated : ∀ newer p between m older id, passes = newer ++ p :: (between ++ m :: older) →
    m.Observes id → (∀ q ∈ between, m.Waits q grace id) → p.Orphaned id →
      grace ≤ m.elapsed p id → p.Terminates id

variable {dry_run decrement : Bool} {grace : ℕ} {p m : GracePass} {passes between : List GracePass}
  {state : CleanupState} {id : String}

theorem GracePass.Blind.not_orphaned (h : p.Blind) : ¬ p.Orphaned id := by
  rintro ⟨hin, -⟩
  rw [SystemSnapshot.asgIds, h.2] at hin
  cases hin

namespace GracePass.Runs

/-- A pass whose query failed drops every entry. -/
theorem entry_of_blind (hp : p.Runs dry_run decrement grace) (h : p.Blind) :
    p.after.orphan_first_seen id = none := by
  rw [hp.entry, if_neg h.not_orphaned]

theorem entry_of_waiting {since : ℕ} (hp : p.Runs dry_run decrement grace) (h : p.Orphaned id)
    (hseen : p.before.orphan_first_seen id = some since)
    (hwait : (p.clock.orphan id - since) / 10 ^ 9 < grace) :
    p.after.orphan_first_seen id = some since := by
  rw [hp.entry, if_pos h, hseen, nextSeen_iterate_of_waiting hwait]

theorem entry_of_observes (hp : p.Runs dry_run decrement grace) (h : p.Observes id) :
    p.after.orphan_first_seen id = some (p.clock.orphan id) := by
  obtain ⟨since, hsince⟩ := Option.ne_none_iff_exists'.mp h.2
  have horphan := hp.orphaned_of_entry hsince
  have hnow := hsince
  rw [hp.entry, if_pos horphan, h.1] at hnow
  rw [hsince, nextSeen_iterate_none hnow]

/-- A pass that sees an instance without lease terminates it when its grace period is over, and else
keeps its entry. -/
theorem kept_or_terminates {since : ℕ} (hp : p.Runs false decrement grace) (h : p.Orphaned id)
    (hseen : p.before.orphan_first_seen id = some since) :
    p.after.orphan_first_seen id = some since ∨ p.Terminates id := by
  by_cases hwait : (p.clock.orphan id - since) / 10 ^ 9 < grace
  · exact .inl (hp.entry_of_waiting h hseen hwait)
  · refine .inr (hp.terminates_iff.mpr ⟨h, ?_⟩)
    rw [hseen]
    show grace ≤ (p.clock.orphan id - since) / 10 ^ 9
    omega

end GracePass.Runs

/-- While no pass loses an entry to a failed query, the entry of an instance that waits marks its
first observation. -/
theorem GraceRun.entry_of_waits {older : List GracePass}
    (run : GraceRun dry_run decrement grace (between ++ m :: older) state)
    (hblind : ∀ q ∈ between, q.Blind → ∀ id, q.before.orphan_first_seen id = none)
    (hm : m.Observes id) (hwait : ∀ q ∈ between, m.Waits q grace id) :
    state.orphan_first_seen id = some (m.clock.orphan id) := by
  induction between generalizing state with
  | nil =>
    obtain _ | ⟨-, runs⟩ := run
    exact runs.entry_of_observes hm
  | cons q between ih =>
    obtain _ | ⟨run, runs⟩ := run
    have hbefore := ih run (fun q hq => hblind q (by simp [hq])) fun q hq => hwait q (by simp [hq])
    obtain ⟨hleased, hblinded | ⟨hin, htime⟩⟩ := hwait q (by simp)
    · have hnone := hblind q (by simp) hblinded id
      rw [hbefore] at hnone
      cases hnone
    · exact runs.entry_of_waiting ⟨hin, hleased⟩ hbefore htime

/-- The grace periods survive exactly when no period runs at a pass whose query failed. -/
theorem timers_survive_iff (run : GraceRun false decrement grace passes state) :
    TimersSurvive grace passes ↔
      ∀ p ∈ passes, p.Blind → ∀ id, p.before.orphan_first_seen id = none := by
  constructor
  · intro h p hp hblind id
    obtain ⟨newer, older, rfl⟩ := List.append_of_mem hp
    rw [← h.blind p hp hblind]
    exact run.split.2.entry_of_blind hblind
  · intro h
    refine ⟨fun p hp id since hseen hleased hin hterm => ?_, fun p hp hblind => ?_, ?_⟩
    · obtain ⟨newer, older, rfl⟩ := List.append_of_mem hp
      have hdata : ¬ p.Blind := fun hblind => by
        rw [h p hp hblind id] at hseen
        cases hseen
      exact (run.split.2.kept_or_terminates ⟨hin hdata, hleased⟩ hseen).resolve_right hterm
    · obtain ⟨newer, older, rfl⟩ := List.append_of_mem hp
      funext id
      rw [run.split.2.entry_of_blind hblind, h p hp hblind id]
    · rintro newer p between m older id rfl hm hwait horphan hover
      obtain ⟨run', runs⟩ := run.split
      have hseen := run'.entry_of_waits (fun q hq => h q (by simp [hq])) hm hwait
      refine runs.terminates_iff.mpr ⟨horphan, ?_⟩
      rw [hseen]
      exact hover

/-- A failed query does no harm before the first observation. -/
theorem timers_survive_from_the_first : TimersSurvive 120
    (gracePasses [⟨groupOfOne, 120⟩, ⟨groupOfOne, 0⟩, ⟨(none, []), 0⟩]).1 := by
  refine (timers_survive_iff (gracePasses_run _)).mpr ?_
  intro p hp hblind id
  rcases hp with _ | ⟨_, _ | ⟨_, _ | ⟨_, hp⟩⟩⟩
  · cases hblind.2
  · cases hblind.2
  · rfl
  · cases hp

/-- One failed query, and the instance outlives its grace period. -/
theorem timers_lost : ¬ ∀ decrement grace passes state,
    GraceRun false decrement grace passes state → TimersSurvive grace passes := by
  intro h
  have run := gracePasses_run [⟨groupOfOne, 120⟩, ⟨(none, []), 60⟩, ⟨groupOfOne, 0⟩]
  have hterm := (h _ _ _ _ run).terminated [] _ [_] _ [] "i-a" rfl ⟨rfl, by decide +kernel⟩
    (List.forall_mem_singleton.mpr ⟨by decide +kernel, .inl ⟨rfl, rfl⟩⟩)
    (by decide +kernel) (by decide +kernel)
  obtain ⟨d, hmem⟩ := hterm
  exact absurd hmem (by cases d <;> decide +kernel)

end Aerosuite.Scale
