import Aerosuite.Scale.Cleanup

/-! Which instances section 2.2 terminates: those in service that own no lease and whose grace
period is over. -/

namespace Aerosuite.Scale

open Program

variable {snapshot : SystemSnapshot} {clock : PassClock} {grace : ℕ} {id : String}

/-- The grace period of an instance that section 2.2 visits `n` times is over.  A period of length 0
that starts with the first of several visits is over at the second. -/
def GraceOver (clock : PassClock) (grace : ℕ) (first_seen : Option ℕ) (id : String) (n : ℕ) :
    Prop :=
  match first_seen with
  | some since => grace ≤ (clock.orphan id - since) / 10 ^ 9
  | none => grace = 0 ∧ 2 ≤ n

section Visit

variable {first_seen : String → Option ℕ} {still_orphaned : List String} {inst : AsgInstance}
  {t : List (Event Eff Eff.Reply)} {acc acc' : (String → Option ℕ) × List String} {decrement : Bool}

theorem exec_visit_other
    (h : Exec (visitInstance snapshot clock false grace (first_seen, still_orphaned) inst) t acc')
    (hid : id ≠ inst.instance_id) :
    acc'.1 id = first_seen id ∧ Eff.terminateInstance id decrement ∉ t.map Event.op := by
  simp only [visitInstance] at h
  split at h
  · obtain ⟨rfl, rfl⟩ := exec_ret.mp h
    exact ⟨Function.update_of_ne hid _ _, by simp⟩
  · split at h
    · obtain ⟨rfl, rfl⟩ := exec_ret.mp h
      exact ⟨Function.update_of_ne hid _ _, by simp⟩
    · split at h
      · obtain ⟨rfl, rfl⟩ := exec_ret.mp h
        exact ⟨rfl, by simp⟩
      · obtain ⟨r, t', rfl, h'⟩ := exec_call.mp h
        obtain ⟨rfl, rfl⟩ := exec_ret.mp h'
        exact ⟨Function.update_of_ne hid _ _, by simp [hid]⟩

/-- A visit of an instance without lease terminates it when its grace period is over, and else notes
when it was first seen. -/
theorem exec_visit_self
    (h : Exec (visitInstance snapshot clock false grace (first_seen, still_orphaned) inst) t acc')
    (hleased : inst.instance_id ∉ snapshot.leasedOwners) :
    match first_seen inst.instance_id with
    | none => t = [] ∧ acc'.1 inst.instance_id = some (clock.orphan inst.instance_id)
    | some since =>
      if grace ≤ (clock.orphan inst.instance_id - since) / 10 ^ 9 then
        t.map Event.op = [.terminateInstance inst.instance_id false]
      else t = [] ∧ acc'.1 inst.instance_id = some since := by
  simp only [visitInstance, if_neg hleased] at h
  cases hseen : first_seen inst.instance_id with
  | none =>
    simp only [hseen] at h
    obtain ⟨rfl, rfl⟩ := exec_ret.mp h
    exact ⟨rfl, Function.update_self _ _ _⟩
  | some since =>
    simp only [hseen] at h
    split at h
    · next hlt =>
      obtain ⟨rfl, rfl⟩ := exec_ret.mp h
      have hwait : ¬ grace ≤ (clock.orphan inst.instance_id - since) / 10 ^ 9 := by omega
      simp only [hwait, if_false]
      exact ⟨trivial, hseen⟩
    · next hge =>
      obtain ⟨r, t', rfl, h'⟩ := exec_call.mp h
      obtain ⟨rfl, rfl⟩ := exec_ret.mp h'
      have hover : grace ≤ (clock.orphan inst.instance_id - since) / 10 ^ 9 := by omega
      simp only [hover, if_true]
      rfl

/-- The visits terminate an instance that they reach, that owns no lease and whose grace period is
over. -/
theorem visits_terminate_iff {insts : List AsgInstance}
    (h : Exec (foldEach (visitInstance snapshot clock false grace) acc insts) t acc') :
    Eff.terminateInstance id false ∈ t.map Event.op ↔
      id ∈ insts.map AsgInstance.instance_id ∧ id ∉ snapshot.leasedOwners ∧
        GraceOver clock grace (acc.1 id) id ((insts.map AsgInstance.instance_id).count id) := by
  induction insts generalizing acc t with
  | nil =>
    obtain ⟨rfl, -⟩ := exec_ret.mp h
    simp
  | cons inst insts ih =>
    obtain ⟨first_seen, still_orphaned⟩ := acc
    obtain ⟨t₁, acc₁, t₂, rfl, h₁, h₂⟩ := exec_bind.mp h
    rw [List.map_append, List.mem_append, ih h₂]
    by_cases hid : id = inst.instance_id
    · by_cases hleased : id ∈ snapshot.leasedOwners
      · have hnone : Eff.terminateInstance id false ∉ t₁.map Event.op := by
          subst hid
          simp only [visitInstance, if_pos hleased] at h₁
          obtain ⟨rfl, -⟩ := exec_ret.mp h₁
          simp
        simp [hnone, hleased]
      · subst hid
        have hvisit := exec_visit_self h₁ hleased
        cases hseen : first_seen inst.instance_id with
        | none =>
          simp only [hseen] at hvisit
          obtain ⟨rfl, hseen₁⟩ := hvisit
          -- Another visit of this pass finds a period that has just begun.
          have hcount := List.count_pos_iff (a := inst.instance_id)
            (l := insts.map AsgInstance.instance_id)
          simp only [List.map_nil, List.not_mem_nil, false_or, hseen₁, hseen, hleased, GraceOver,
            List.map_cons, List.mem_cons_self, List.count_cons_self, Nat.sub_self, Nat.zero_div,
            Nat.le_zero, not_false_iff, true_and]
          constructor
          · rintro ⟨hmem, rfl⟩
            have := hcount.mpr hmem
            exact ⟨rfl, by omega⟩
          · rintro ⟨rfl, hle⟩
            exact ⟨hcount.mp (by omega), rfl⟩
        | some since =>
          simp only [hseen] at hvisit
          split at hvisit
          · next hover => simpa [hvisit, hleased, GraceOver, hseen] using hover
          · next hover =>
            obtain ⟨rfl, hseen₁⟩ := hvisit
            simp only [hseen₁, hseen, GraceOver, hover, and_false, List.map_nil, List.not_mem_nil,
              false_or]
    · obtain ⟨hseen, hnone⟩ : acc₁.1 id = first_seen id ∧
          Eff.terminateInstance id false ∉ t₁.map Event.op := exec_visit_other h₁ hid
      simp [hseen, hnone, hid, List.count_cons_of_ne (Ne.symm hid)]

end Visit

/-- Section 2.2 only terminates instances in service that own no lease, without decrement, and none
on a dry run. -/
theorem section22_always {state : CleanupState} {dry_run : Bool} :
    (section22 snapshot state clock dry_run grace).Always fun e => dry_run = false ∧
      ∃ id ∈ snapshot.asgIds, id ∉ snapshot.leasedOwners ∧ e = .terminateInstance id false := by
  refine Always.bind (Always.foldEach (fun acc inst hinst => ?_) _) fun _ => trivial
  unfold visitInstance
  dsimp only
  split
  · trivial
  · next hleased =>
    split
    · trivial
    · split
      · trivial
      · refine Always.bind ?_ fun _ => trivial
        cases dry_run with
        | true => trivial
        | false => exact ⟨⟨rfl, _, List.mem_map_of_mem hinst, hleased, rfl⟩, fun _ => trivial⟩

/-- Section 2.2 terminates exactly the instances in service that own no lease and whose grace period
is over. -/
theorem section22_terminates_iff {state state' : CleanupState} {t : List (Event Eff Eff.Reply)}
    (h : Exec (section22 snapshot state clock false grace) t state') :
    Eff.terminateInstance id false ∈ t.map Event.op ↔
      id ∈ snapshot.asgIds ∧ id ∉ snapshot.leasedOwners ∧
        GraceOver clock grace (state.orphan_first_seen id) id (snapshot.asgIds.count id) := by
  obtain ⟨acc', h₁, -⟩ := exec_bind_ret.mp h
  exact visits_terminate_iff h₁

/-- The grace periods of the instances that are still orphaned run on. -/
def Waiting (clock : PassClock) (grace : ℕ) (acc : (String → Option ℕ) × List String) : Prop :=
  ∀ id ∈ acc.2, ∀ since, acc.1 id = some since → (clock.orphan id - since) / 10 ^ 9 < grace

theorem Waiting.update {first_seen first_seen' : String → Option ℕ} {still still' : List String}
    {i : String} (h : Waiting clock grace (first_seen, still))
    (hother : ∀ id ≠ i, id ∈ still' → id ∈ still ∧ first_seen' id = first_seen id)
    (hself : i ∈ still' → ∀ since, first_seen' i = some since →
      (clock.orphan i - since) / 10 ^ 9 < grace) :
    Waiting clock grace (first_seen', still') := by
  intro id hid since hseen
  by_cases heq : id = i
  · subst heq
    exact hself hid since hseen
  · obtain ⟨hid', hsame⟩ := hother id heq hid
    exact h id hid' since (hsame.symm.trans hseen)

theorem visitInstance_waiting {acc : (String → Option ℕ) × List String} {inst : AsgInstance}
    (hgrace : 0 < grace) (h : Waiting clock grace acc) :
    (visitInstance snapshot clock false grace acc inst).Returns (Waiting clock grace) := by
  obtain ⟨first_seen, still_orphaned⟩ := acc
  unfold visitInstance
  dsimp only
  split
  · exact h.update (i := inst.instance_id) (fun id hne hid => ⟨hid, Function.update_of_ne hne _ _⟩)
      fun _ since hseen => by simp at hseen
  · cases hfirst : first_seen inst.instance_id with
    | none =>
      refine h.update (i := inst.instance_id) (fun id hne hid =>
        ⟨(List.mem_cons.mp hid).resolve_left hne, Function.update_of_ne hne _ _⟩) fun _
          since hseen => ?_
      rw [Function.update_self] at hseen
      rw [← Option.some.inj hseen, Nat.sub_self, Nat.zero_div]
      exact hgrace
    | some first =>
      dsimp only
      split
      · next hlt =>
        refine h.update (i := inst.instance_id)
          (fun id hne hid => ⟨(List.mem_cons.mp hid).resolve_left hne, rfl⟩) fun _ since hseen => ?_
        rw [hfirst] at hseen
        rw [← Option.some.inj hseen]
        exact hlt
      · exact fun r => h.update (i := inst.instance_id)
          (fun id hne hid => ⟨(List.mem_filter.mp hid).1, Function.update_of_ne hne _ _⟩)
          fun _ since hseen => by simp at hseen

/-- After section 2.2 the grace periods that the state holds run on. -/
theorem section22_waiting {state : CleanupState} (hgrace : 0 < grace) :
    (section22 snapshot state clock false grace).Returns fun state' => ∀ id since,
      state'.orphan_first_seen id = some since → (clock.orphan id - since) / 10 ^ 9 < grace := by
  have hvisits : (foldEach (visitInstance snapshot clock false grace) (state.orphan_first_seen, [])
      (snapshot.asg.filter AsgInstance.isInService)).Returns (Waiting clock grace) :=
    Returns.foldEach (fun id hid => by cases hid) fun acc inst _ => visitInstance_waiting hgrace
  refine hvisits.bind fun acc hwait id since hseen => ?_
  dsimp only at hseen
  split at hseen
  · next hid => exact hwait id hid since hseen
  · cases hseen

theorem exec_cleanupRun {dry_run decrement : Bool} {t : List (Event Eff Eff.Reply)}
    {before after : CleanupState}
    (h : Exec (cleanupRun snapshot clock dry_run true decrement before grace) t after) :
    ∃ t₁ t₂ t₃, t = t₁ ++ (t₂ ++ t₃) ∧ Exec (section21 snapshot clock dry_run decrement) t₁ () ∧
      Exec (section22 snapshot before clock dry_run grace) t₂ after ∧
        Exec (section23 snapshot dry_run) t₃ () := by
  rw [cleanupRun, if_neg (by simp)] at h
  obtain ⟨t₁, _, t', rfl, h₁, h'⟩ := exec_bind.mp h
  obtain ⟨t₂, state, t'', rfl, h₂, h''⟩ := exec_bind.mp h'
  obtain ⟨_, h₃, rfl⟩ := exec_bind_ret.mp h''
  exact ⟨t₁, t₂, t'', rfl, h₁, h₂, h₃⟩

end Aerosuite.Scale
