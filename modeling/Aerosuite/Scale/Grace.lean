import Aerosuite.Scale.Orphans

/-! The grace periods of section 2.2 over the passes of a master.  An entry of `orphan_first_seen`
marks the start of a streak of passes that all find the instance in service and without lease, but a
pass whose query of the group failed finds no instance and drops every entry. -/

namespace Aerosuite.Scale

open Program

section FirstSeen

variable {snapshot : SystemSnapshot} {clock : PassClock} {dry_run : Bool} {grace : ℕ} {id : String}
  {state after : CleanupState} {t : List (Event Eff Eff.Reply)}

/-- The entry of an instance without lease after a visit. -/
def nextSeen (grace now : ℕ) : Option ℕ → Option ℕ
  | none => some now
  | some since => if (now - since) / 10 ^ 9 < grace then some since else none

section Visits

variable {acc acc' : (String → Option ℕ) × List String} {inst : AsgInstance}
  {insts : List AsgInstance}

theorem exec_visit_frame
    (h : Exec (visitInstance snapshot clock dry_run grace acc inst) t acc')
    (hid : id ≠ inst.instance_id) : acc'.1 id = acc.1 id ∧ (id ∈ acc'.2 ↔ id ∈ acc.2) := by
  have hframe : (visitInstance snapshot clock dry_run grace acc inst).Returns fun acc' =>
      acc'.1 id = acc.1 id ∧ (id ∈ acc'.2 ↔ id ∈ acc.2) := by
    obtain ⟨first_seen, still_orphaned⟩ := acc
    unfold visitInstance
    dsimp only
    split
    · exact ⟨Function.update_of_ne hid _ _, Iff.rfl⟩
    · split
      · exact ⟨Function.update_of_ne hid _ _, by simp [hid]⟩
      · split
        · exact ⟨rfl, by simp [hid]⟩
        · exact (returns_true _).bind fun _ _ =>
            ⟨Function.update_of_ne hid _ _, by simp [hid]⟩
  exact hframe.exec h

/-- An instance without lease is still orphaned after a visit as long as it has an entry. -/
theorem exec_visit_entry
    (h : Exec (visitInstance snapshot clock dry_run grace acc inst) t acc')
    (hleased : inst.instance_id ∉ snapshot.leasedOwners) :
    acc'.1 inst.instance_id =
        nextSeen grace (clock.orphan inst.instance_id) (acc.1 inst.instance_id) ∧
      (inst.instance_id ∈ acc'.2 ↔ acc'.1 inst.instance_id ≠ none) := by
  have hentry : (visitInstance snapshot clock dry_run grace acc inst).Returns fun acc' =>
      acc'.1 inst.instance_id =
          nextSeen grace (clock.orphan inst.instance_id) (acc.1 inst.instance_id) ∧
        (inst.instance_id ∈ acc'.2 ↔ acc'.1 inst.instance_id ≠ none) := by
    obtain ⟨first_seen, still_orphaned⟩ := acc
    unfold visitInstance
    dsimp only
    rw [if_neg hleased]
    cases hseen : first_seen inst.instance_id with
    | none => simp [nextSeen]
    | some since =>
      dsimp only [nextSeen]
      split
      · simp [hseen]
      · exact (returns_true _).bind fun _ _ => by simp
  exact hentry.exec h

theorem exec_visits_frame
    (h : Exec (foldEach (visitInstance snapshot clock dry_run grace) acc insts) t acc')
    (hid : id ∉ insts.map AsgInstance.instance_id) :
    acc'.1 id = acc.1 id ∧ (id ∈ acc'.2 ↔ id ∈ acc.2) := by
  induction insts generalizing acc t with
  | nil =>
    obtain ⟨rfl, rfl⟩ := exec_ret.mp h
    exact ⟨rfl, Iff.rfl⟩
  | cons inst insts ih =>
    obtain ⟨t₁, acc₁, t₂, rfl, h₁, h₂⟩ := exec_bind.mp h
    rw [List.map_cons, List.mem_cons, not_or] at hid
    obtain ⟨hentry, hstill⟩ := ih h₂ hid.2
    obtain ⟨hentry₁, hstill₁⟩ := exec_visit_frame h₁ hid.1
    exact ⟨hentry.trans hentry₁, hstill.trans hstill₁⟩

theorem exec_visits_entry
    (h : Exec (foldEach (visitInstance snapshot clock dry_run grace) acc insts) t acc')
    (hid : id ∈ insts.map AsgInstance.instance_id) (hleased : id ∉ snapshot.leasedOwners) :
    acc'.1 id = (nextSeen grace (clock.orphan id))^[(insts.map AsgInstance.instance_id).count id]
        (acc.1 id) ∧
      (id ∈ acc'.2 ↔ acc'.1 id ≠ none) := by
  induction insts generalizing acc t with
  | nil => cases hid
  | cons inst insts ih =>
    obtain ⟨t₁, acc₁, t₂, rfl, h₁, h₂⟩ := exec_bind.mp h
    rw [List.map_cons]
    by_cases heq : id = inst.instance_id
    · subst heq
      obtain ⟨hentry₁, hstill₁⟩ := exec_visit_entry h₁ hleased
      rw [List.count_cons_self, Function.iterate_succ_apply, ← hentry₁]
      by_cases hlater : inst.instance_id ∈ insts.map AsgInstance.instance_id
      · exact ih h₂ hlater
      · -- The visit is the last one.
        obtain ⟨hentry, hstill⟩ := exec_visits_frame h₂ hlater
        rw [List.count_eq_zero_of_not_mem hlater, Function.iterate_zero_apply]
        exact ⟨hentry, by rw [hstill, hstill₁, hentry]⟩
    · rw [List.count_cons_of_ne (Ne.symm heq), ← (exec_visit_frame h₁ heq).1]
      exact ih h₂ ((List.mem_cons.mp hid).resolve_left heq)

theorem exec_visits_leased
    (h : Exec (foldEach (visitInstance snapshot clock dry_run grace) acc insts) t acc')
    (hleased : id ∈ snapshot.leasedOwners) (hstill : id ∉ acc.2) : id ∉ acc'.2 := by
  induction insts generalizing acc t with
  | nil =>
    obtain ⟨rfl, rfl⟩ := exec_ret.mp h
    exact hstill
  | cons inst insts ih =>
    obtain ⟨t₁, acc₁, t₂, rfl, h₁, h₂⟩ := exec_bind.mp h
    apply ih h₂
    by_cases heq : id = inst.instance_id
    · subst heq
      simp only [visitInstance, if_pos hleased] at h₁
      obtain ⟨rfl, rfl⟩ := exec_ret.mp h₁
      exact hstill
    · rw [(exec_visit_frame h₁ heq).2]
      exact hstill

end Visits

/-- Section 2.2 keeps the entries of instances in service without lease only. -/
theorem section22_entry (h : Exec (section22 snapshot state clock dry_run grace) t after) :
    after.orphan_first_seen id =
      if id ∈ snapshot.asgIds ∧ id ∉ snapshot.leasedOwners then
        (nextSeen grace (clock.orphan id))^[snapshot.asgIds.count id] (state.orphan_first_seen id)
      else none := by
  obtain ⟨⟨first_seen, still_orphaned⟩, h₁, rfl⟩ := exec_bind_ret.mp h
  dsimp only
  split
  · next hstill =>
    by_cases hin : id ∈ snapshot.asgIds
    · have hleased : id ∉ snapshot.leasedOwners := fun hleased =>
        exec_visits_leased h₁ hleased (by simp) hstill
      rw [if_pos ⟨hin, hleased⟩]
      exact (exec_visits_entry h₁ hin hleased).1
    · exact absurd ((exec_visits_frame h₁ hin).2.mp hstill) (by simp)
  · next hstill =>
    split
    · next horphan =>
      obtain ⟨hentry, hiff⟩ := exec_visits_entry h₁ horphan.1 horphan.2
      have hnone := not_not.mp (mt hiff.mpr hstill)
      exact hnone.symm.trans hentry
    · rfl

theorem nextSeen_iterate_of_waiting {now since : ℕ} (h : (now - since) / 10 ^ 9 < grace) (n : ℕ) :
    (nextSeen grace now)^[n] (some since) = some since := by
  apply Function.iterate_fixed
  rw [nextSeen, if_pos h]

theorem nextSeen_iterate_none {now since n : ℕ}
    (h : (nextSeen grace now)^[n] none = some since) : since = now := by
  induction n with
  | zero => cases h
  | succ n ih =>
    rw [Function.iterate_succ_apply'] at h
    cases hseen : (nextSeen grace now)^[n] none with
    | none =>
      rw [hseen] at h
      exact (Option.some.inj h).symm
    | some since' =>
      rw [hseen, nextSeen] at h
      split at h
      · exact ih (hseen.trans h)
      · cases h

end FirstSeen

/-- A pass of the cleanup of a master, with what its three sections did. -/
structure GracePass where
  snapshot : SystemSnapshot
  clock : PassClock
  before : CleanupState
  leases : List (Event Eff Eff.Reply)
  orphans : List (Event Eff Eff.Reply)
  backends : List (Event Eff Eff.Reply)
  after : CleanupState

namespace GracePass

/-- The pass is one of a daemon with the given configuration. -/
structure Runs (p : GracePass) (dry_run decrement : Bool) (grace : ℕ) : Prop where
  leases : Exec (section21 p.snapshot p.clock dry_run decrement) p.leases ()
  orphans : Exec (section22 p.snapshot p.before p.clock dry_run grace) p.orphans p.after
  backends : Exec (section23 p.snapshot dry_run) p.backends ()

/-- The pass finds the instance in service and without lease. -/
def Orphaned (p : GracePass) (id : String) : Prop :=
  id ∈ p.snapshot.asgIds ∧ id ∉ p.snapshot.leasedOwners

/-- Section 2.2 of the pass terminates the instance. -/
def Terminates (p : GracePass) (id : String) : Prop :=
  ∃ decrement, .terminateInstance id decrement ∈ p.orphans.map Event.op

/-- The whole seconds between the looks of two passes at an instance. -/
def elapsed (m p : GracePass) (id : String) : ℕ := (p.clock.orphan id - m.clock.orphan id) / 10 ^ 9

end GracePass

section Runs

variable {dry_run decrement : Bool} {grace : ℕ} {p : GracePass}
  {passes newer older : List GracePass} {state : CleanupState} {id : String}

/-- A pass is a run of `cleanup::run`, and each such run is a pass. -/
theorem exec_cleanupRun_iff {snapshot : SystemSnapshot} {clock : PassClock}
    {before after : CleanupState} {t : List (Event Eff Eff.Reply)} :
    Exec (cleanupRun snapshot clock dry_run true decrement before grace) t after ↔
      ∃ p : GracePass, p.Runs dry_run decrement grace ∧ p.snapshot = snapshot ∧ p.clock = clock ∧
        p.before = before ∧ p.after = after ∧ t = p.leases ++ (p.orphans ++ p.backends) := by
  constructor
  · intro h
    obtain ⟨t₁, t₂, t₃, rfl, h₁, h₂, h₃⟩ := exec_cleanupRun h
    exact ⟨⟨snapshot, clock, before, t₁, t₂, t₃, after⟩, ⟨h₁, h₂, h₃⟩, rfl, rfl, rfl, rfl, rfl⟩
  · rintro ⟨p, hp, rfl, rfl, rfl, rfl, rfl⟩
    rw [cleanupRun, if_neg (by simp)]
    refine exec_bind.mpr ⟨_, (), _, rfl, hp.leases, ?_⟩
    refine exec_bind.mpr ⟨_, p.after, _, rfl, hp.orphans, ?_⟩
    exact exec_bind_ret.mpr ⟨(), hp.backends, rfl⟩

/-- The passes of a master, newest first, since its start. -/
inductive GraceRun (dry_run decrement : Bool) (grace : ℕ) : List GracePass → CleanupState → Prop
  | start : GraceRun dry_run decrement grace [] ⟨fun _ => none⟩
  | pass {p : GracePass} {passes : List GracePass}
      (run : GraceRun dry_run decrement grace passes p.before)
      (runs : p.Runs dry_run decrement grace) :
        GraceRun dry_run decrement grace (p :: passes) p.after

theorem GraceRun.split (h : GraceRun dry_run decrement grace (newer ++ p :: older) state) :
    GraceRun dry_run decrement grace older p.before ∧ p.Runs dry_run decrement grace := by
  induction newer generalizing state with
  | nil =>
    obtain _ | ⟨run, runs⟩ := h
    exact ⟨run, runs⟩
  | cons q newer ih =>
    obtain _ | ⟨run, -⟩ := h
    exact ih run

instance (p : GracePass) (id : String) : Decidable (p.Orphaned id) :=
  inferInstanceAs (Decidable (_ ∧ _))

namespace GracePass.Runs

theorem entry (hp : p.Runs dry_run decrement grace) :
    p.after.orphan_first_seen id =
      if p.Orphaned id then
        (nextSeen grace (p.clock.orphan id))^[p.snapshot.asgIds.count id]
          (p.before.orphan_first_seen id)
      else none :=
  section22_entry hp.orphans

theorem orphaned_of_entry {since : ℕ} (hp : p.Runs dry_run decrement grace)
    (h : p.after.orphan_first_seen id = some since) : p.Orphaned id := by
  by_contra hnot
  rw [hp.entry, if_neg hnot] at h
  cases h

theorem without_decrement {d : Bool} (hp : p.Runs dry_run decrement grace)
    (h : .terminateInstance id d ∈ p.orphans.map Event.op) : d = false := by
  obtain ⟨-, id', -, -, heq⟩ := section22_always.exec_op hp.orphans h
  exact (Eff.terminateInstance.inj heq).2

theorem terminates_iff (hp : p.Runs false decrement grace) :
    p.Terminates id ↔ p.Orphaned id ∧ GraceOver p.clock grace (p.before.orphan_first_seen id) id
      (p.snapshot.asgIds.count id) := by
  rw [GracePass.Orphaned, and_assoc, ← section22_terminates_iff hp.orphans]
  constructor
  · rintro ⟨d, hmem⟩
    obtain rfl := hp.without_decrement hmem
    exact hmem
  · exact fun hmem => ⟨false, hmem⟩

theorem live_of_terminates (hp : p.Runs dry_run decrement grace) (h : p.Terminates id) :
    dry_run = false := by
  obtain ⟨d, hmem⟩ := h
  exact (section22_always.exec_op hp.orphans hmem).1

end GracePass.Runs

/-- The instances of the snapshot are distinct. -/
def GracePass.Distinct (p : GracePass) : Prop := (p.snapshot.asg.map AsgInstance.instance_id).Nodup

theorem GracePass.Distinct.count (hd : p.Distinct) (hid : id ∈ p.snapshot.asgIds) :
    p.snapshot.asgIds.count id = 1 :=
  List.count_eq_one_of_mem (hd.sublist (List.filter_sublist.map _)) hid

/-- The grace period of the instance is over at the pass. -/
def GracePass.Over (p : GracePass) (grace : ℕ) (id : String) : Prop :=
  ∃ since, p.before.orphan_first_seen id = some since ∧
    grace ≤ (p.clock.orphan id - since) / 10 ^ 9

/-- With distinct instances a grace period is over before its instance is terminated. -/
theorem GracePass.Runs.over_of_terminates (hp : p.Runs dry_run decrement grace) (hd : p.Distinct)
    (h : p.Terminates id) : p.Orphaned id ∧ p.Over grace id := by
  obtain rfl := hp.live_of_terminates h
  obtain ⟨horphan, hover⟩ := hp.terminates_iff.mp h
  refine ⟨horphan, ?_⟩
  rw [hd.count horphan.1] at hover
  cases hseen : p.before.orphan_first_seen id with
  | none =>
    rw [hseen] at hover
    exact absurd hover.2 (by omega)
  | some since =>
    rw [hseen] at hover
    exact ⟨since, hseen, hover⟩

/-- An entry after a pass began with the pass or was there before it, and the instance was not
terminated. -/
theorem GracePass.Runs.entry_cases {since : ℕ} (hp : p.Runs dry_run decrement grace)
    (hd : p.Distinct) (h : p.after.orphan_first_seen id = some since) :
    p.Orphaned id ∧ ¬ p.Terminates id ∧
      (p.clock.orphan id = since ∨ p.before.orphan_first_seen id = some since) := by
  have horphan := hp.orphaned_of_entry h
  rw [hp.entry, if_pos horphan, hd.count horphan.1, Function.iterate_one] at h
  refine ⟨horphan, fun hterm => ?_, ?_⟩
  · obtain ⟨-, since', hseen, hover⟩ := hp.over_of_terminates hd hterm
    rw [hseen, nextSeen, if_neg (by omega)] at h
    cases h
  · cases hseen : p.before.orphan_first_seen id with
    | none =>
      rw [hseen] at h
      exact .inl (Option.some.inj h)
    | some since' =>
      rw [hseen, nextSeen] at h
      split at h
      · exact .inr h
      · cases h

/-- An entry marks the start of a streak of passes that leave the instance orphaned. -/
theorem GraceRun.streak {since : ℕ} (run : GraceRun dry_run decrement grace passes state)
    (hd : ∀ p ∈ passes, p.Distinct) (h : state.orphan_first_seen id = some since) :
    ∃ between m earlier, passes = between ++ m :: earlier ∧ m.clock.orphan id = since ∧
      ∀ q ∈ between ++ [m], q.Orphaned id ∧ ¬ q.Terminates id := by
  induction run with
  | start => cases h
  | @pass p passes _ runs ih =>
    obtain ⟨horphan, hnot, hsince⟩ := runs.entry_cases (hd p (by simp)) h
    rcases hsince with hnow | hbefore
    · exact ⟨[], p, passes, rfl, hnow, by simp [horphan, hnot]⟩
    · obtain ⟨between, m, earlier, rfl, hm, hstreak⟩ :=
        ih (fun q hq => hd q (by simp [hq])) hbefore
      refine ⟨p :: between, m, earlier, rfl, hm, ?_⟩
      rintro q (_ | ⟨_, hq⟩)
      · exact ⟨horphan, hnot⟩
      · exact hstreak q hq

/-- Section 2.2 terminates an instance only after a streak of passes that all find it in service and
without lease, do not terminate it, and last the grace period. -/
theorem orphan_grace_honoured (run : GraceRun dry_run decrement grace passes state)
    (hd : ∀ p ∈ passes, p.Distinct)
    (htime : passes.Pairwise fun later earlier =>
      ∀ id, earlier.clock.orphan id ≤ later.clock.orphan id)
    {d : Bool} (hpasses : passes = newer ++ p :: older)
    (h : .terminateInstance id d ∈ p.orphans.map Event.op) :
    d = false ∧ ∃ between m earlier, older = between ++ m :: earlier ∧
      (∀ q ∈ p :: (between ++ [m]), q.Orphaned id) ∧
      m.clock.orphan id + grace * 10 ^ 9 ≤ p.clock.orphan id ∧
      ∀ q ∈ between ++ [m], ¬ q.Terminates id := by
  subst hpasses
  obtain ⟨run', runs⟩ := run.split
  obtain ⟨horphan, since, hseen, hover⟩ := runs.over_of_terminates (hd p (by simp)) ⟨d, h⟩
  obtain ⟨between, m, earlier, rfl, rfl, hstreak⟩ :=
    run'.streak (fun q hq => hd q (by simp [hq])) hseen
  refine ⟨runs.without_decrement h, between, m, earlier, rfl, ?_, ?_, fun q hq => (hstreak q hq).2⟩
  · rintro q (_ | ⟨_, hq⟩)
    · exact horphan
    · exact (hstreak q hq).1
  · have hle : m.clock.orphan id ≤ p.clock.orphan id :=
      (List.pairwise_cons.mp (List.pairwise_append.mp htime).2.1).1 m (by simp) id
    have hmul := (Nat.le_div_iff_mul_le (by decide)).mp hover
    omega

/-- The group and its instances as a pass sees them at a second.  A group of `none` is that of a
query that failed. -/
structure GroupView where
  asg : Option AsgGroupInfo × List AsgInstance
  second : ℕ

/-- A pass that finds no lease, with a grace period of two minutes.  All its requests succeed. -/
def gracePass (view : GroupView) (before : CleanupState) : GracePass :=
  let snapshot : SystemSnapshot := ⟨[], [], view.asg.2, view.asg.1, []⟩
  let clock : PassClock := ⟨fun _ => view.second * 1000, fun _ => view.second * 10 ^ 9⟩
  let orphans := answering okReply (section22 snapshot before clock false 120)
  ⟨snapshot, clock, before, (answering okReply (section21 snapshot clock false true)).1, orphans.1,
    (answering okReply (section23 snapshot false)).1, orphans.2⟩

/-- The passes of a master that sees the group so, newest first, and the state after them. -/
def gracePasses : List GroupView → List GracePass × CleanupState
  | [] => ([], ⟨fun _ => none⟩)
  | view :: views =>
    let p := gracePass view (gracePasses views).2
    (p :: (gracePasses views).1, p.after)

theorem gracePasses_run (views : List GroupView) :
    GraceRun false true 120 (gracePasses views).1 (gracePasses views).2 := by
  induction views with
  | nil => exact .start
  | cons view views ih =>
    exact .pass ih ⟨exec_answering okReply _, exec_answering okReply _, exec_answering okReply _⟩

/-- A group with one instance in service. -/
def groupOfOne : Option AsgGroupInfo × List AsgInstance :=
  (some ⟨"pool", 1, 0, 4⟩, [⟨"i-a", "InService", "Healthy"⟩])

/-- An instance that never registers is terminated two minutes after it was seen first. -/
theorem orphan_grace_honoured_after_120 : ∃ between m earlier,
    (gracePasses [⟨groupOfOne, 60⟩, ⟨groupOfOne, 0⟩]).1 = between ++ m :: earlier ∧
      m.clock.orphan "i-a" + 120 * 10 ^ 9 ≤ 120 * 10 ^ 9 := by
  have hd : ∀ p ∈ (gracePasses [⟨groupOfOne, 120⟩, ⟨groupOfOne, 60⟩, ⟨groupOfOne, 0⟩]).1,
      p.Distinct := by
    simp [gracePasses, gracePass, GracePass.Distinct, groupOfOne]
  have htime : (gracePasses [⟨groupOfOne, 120⟩, ⟨groupOfOne, 60⟩, ⟨groupOfOne, 0⟩]).1.Pairwise
      fun later earlier => ∀ id, earlier.clock.orphan id ≤ later.clock.orphan id := by
    simp [gracePasses, gracePass]
  have h := orphan_grace_honoured (gracePasses_run _) hd htime (show _ = [] ++ _ :: _ from rfl)
    (show Eff.terminateInstance "i-a" false ∈ _ by decide +kernel)
  obtain ⟨-, between, m, earlier, holder, -, hle, -⟩ := h
  exact ⟨between, m, earlier, holder, hle⟩

end Runs

end Aerosuite.Scale
