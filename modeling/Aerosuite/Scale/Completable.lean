import Aerosuite.Scale.ScalerSteps
import Mathlib.Data.Finset.Card
import Mathlib.Data.Finset.Range

/-! Whether a drain that begins can be completed.  `evaluate_drain` looks at the minimum of the
group and at the number of draining backends, but never at both together. -/

namespace Aerosuite.Scale

open Program

/-- The backends that drain. -/
def SystemSnapshot.draining (snapshot : SystemSnapshot) : List BackendStatus :=
  snapshot.backends.filter fun b => b.weight_state = .draining

section Counts

variable {src : Sources} {clock : ScalerClock} {active : List BackendStatus} {b : BackendStatus}

theorem length_backends_le : src.snapshot.backends.length ≤ 2 ^ 32 := by
  have hips : (src.weights.map WeightEntry.ip).toFinset ⊆ Finset.range (2 ^ 32) := by
    intro ip hip
    obtain ⟨w, hw, rfl⟩ := List.mem_map.mp (List.mem_toFinset.mp hip)
    exact Finset.mem_range.mpr (src.ips_lt w hw)
  have hcard := Finset.card_le_card hips
  rw [List.toFinset_card_of_nodup src.distinct_ips, Finset.card_range, List.length_map] at hcard
  have hlength : src.snapshot.backends.length = src.weights.length := List.length_map _
  omega

/-- Next to an active backend, the number of draining ones fits into a `u32`. -/
theorem drainingCount_eq (hb : b ∈ src.snapshot.activeBackends clock) :
    src.snapshot.drainingCount = src.snapshot.draining.length := by
  obtain ⟨hmem, hactive⟩ := List.mem_filter.mp hb
  have hnot : decide (b.weight_state = .draining) = false := by
    simp only [decide_eq_true_eq] at hactive
    simp [hactive.1]
  have hlt : src.snapshot.draining.length < src.snapshot.backends.length :=
    List.length_filter_lt_length_iff_exists.mpr ⟨b, hmem, by simp [hnot]⟩
  have hle : src.snapshot.backends.length ≤ 2 ^ 32 := length_backends_le
  exact Nat.mod_eq_of_lt (by unfold SystemSnapshot.draining at hlt; omega)

theorem least_sessions_le {least : BackendStatus} (hleast : (bySessions active).head? = some least)
    (hb : b ∈ active) : least.sessions ≤ b.sessions := by
  have hsorted :=
    List.pairwise_insertionSort (fun a b : BackendStatus => a.sessions ≤ b.sessions) active
  have hmem : b ∈ bySessions active := (List.mem_insertionSort _).mpr hb
  unfold bySessions at hleast hmem
  cases hlist : active.insertionSort fun a b => a.sessions ≤ b.sessions with
  | nil => simp [hlist] at hmem
  | cons x xs =>
    rw [hlist] at hsorted hleast hmem
    obtain rfl : x = least := Option.some.inj hleast
    rcases List.mem_cons.mp hmem with rfl | hxs
    · exact le_refl _
    · exact (List.pairwise_cons.mp hsorted).1 b hxs

theorem drainCandidate_cases {snapshot : SystemSnapshot}
    (h : drainCandidate snapshot active = some b) :
    (∃ b ∈ active, b.sessions = 0) ∨ snapshot.drainingCount = 0 := by
  have hmem := drainCandidate_mem h
  rw [drainCandidate] at h
  split at h
  · cases h
  · next least hleast =>
    split at h
    · next hzero =>
      obtain rfl := Option.some.inj h
      exact .inl ⟨least, hmem, hzero⟩
    · split at h
      · next hcount => exact .inr hcount
      · cases h

theorem exists_drainCandidate {snapshot : SystemSnapshot} (hb : b ∈ active)
    (hzero : b.sessions = 0) :
    ∃ least, drainCandidate snapshot active = some least := by
  cases hleast : (bySessions active).head? with
  | none =>
    have hnil : bySessions active = [] := List.head?_eq_none_iff.mp hleast
    have hmem : b ∈ bySessions active := (List.mem_insertionSort _).mpr hb
    rw [hnil] at hmem
    cases hmem
  | some least =>
    have hle := least_sessions_le hleast hb
    refine ⟨least, ?_⟩
    simp only [drainCandidate, hleast]
    rw [if_pos (by omega)]

end Counts

section Completable

variable {F : Type}

/-- When a drain is initiated, the draining backends with the new one are at most as many as the
group has above its minimum. -/
def DrainCompletable (src : Sources) (config : ScaleConfig F) (state : ScalerState F)
    (clock : ScalerClock) : Prop :=
  ∀ t state', Exec (evaluateDrain src.snapshot
    (src.snapshot.activeBackends clock) config state clock
      false) t state' →
    ∀ name, ⟨.writeFile name WEIGHT_DRAINING, .ok ()⟩ ∈ t →
      ∃ group, src.snapshot.asg_group = some group ∧
        (src.snapshot.draining.length : ℤ) + 1 ≤ group.desired_capacity - group.min_size

/-- A drain that is initiated can be completed exactly when it is not due, or no active backend is
without sessions, or fewer backends drain than the group has above its minimum. -/
theorem drainCompletable_iff (src : Sources) (config : ScaleConfig F) (state : ScalerState F)
    (clock : ScalerClock) :
    DrainCompletable src config state clock ↔
      (DrainDue src.snapshot (src.snapshot.activeBackends clock) config state clock →
        (∃ b ∈ src.snapshot.activeBackends clock, b.sessions = 0) →
          ∀ group, src.snapshot.asg_group = some group →
            (src.snapshot.draining.length : ℤ) < group.desired_capacity - group.min_size) := by
  constructor
  · rintro hall hdue ⟨b, hb, hzero⟩ group hgroup
    obtain ⟨least, hleast⟩ :
      ∃ least, drainCandidate src.snapshot (src.snapshot.activeBackends clock) =
        some least := exists_drainCandidate hb hzero
    have hdecision := drainDecision_eq_some.mpr ⟨hdue, hleast⟩
    have hrun := exec_answering okReply
      (evaluateDrain src.snapshot (src.snapshot.activeBackends clock)
      config state clock false)
    obtain ⟨hnone, -⟩ | ⟨b', r, -, ht, -⟩ := exec_evaluateDrain hrun
    · cases hnone.symm.trans hdecision
    · have hmem : ⟨Eff.writeFile (weightFile b'.ip) WEIGHT_DRAINING, r⟩ ∈ (answering okReply
          (evaluateDrain src.snapshot (src.snapshot.activeBackends clock) config state clock
            false)).1 := by
        rw [ht]
        exact List.mem_singleton.mpr rfl
      obtain rfl : r = .ok () := mem_answering _ hmem
      obtain ⟨group', hgroup', hle⟩ := hall _ _ hrun _ hmem
      obtain rfl := Option.some.inj (hgroup.symm.trans hgroup')
      omega
  · intro hcond t state' hrun name hwrite
    obtain ⟨-, rfl, -⟩ | ⟨b, r, hdecision, -⟩ := exec_evaluateDrain hrun
    · cases hwrite
    · obtain ⟨hdue, hcandidate⟩ := drainDecision_eq_some.mp hdecision
      obtain ⟨group, hgroup, hmin⟩ := hdue.aboveMin
      refine ⟨group, hgroup, ?_⟩
      rcases drainCandidate_cases hcandidate with hzero | hcount
      · have hlt := hcond hdue hzero group hgroup
        omega
      · rw [drainingCount_eq (drainCandidate_mem hcandidate)] at hcount
        omega

/-- A draining backend and two active ones without connections, in a group of three that must keep
two. -/
def oneDraining : Sources where
  net := exampleNet
  weights := [⟨167772180, .draining⟩, ⟨167772181, .active⟩, ⟨167772182, .active⟩]
  leases := [⟨0, "i-a", 2000⟩, ⟨1, "i-b", 2000⟩, ⟨2, "i-c", 2000⟩]
  asg := (some ⟨"pool", 3, 2, 4⟩, [⟨"i-a", "InService", "Healthy"⟩,
    ⟨"i-b", "InService", "Healthy"⟩, ⟨"i-c", "InService", "Healthy"⟩])
  table := .ok "  -> 0A000015:0015 Masq 0 0 0\n  -> 0A000016:0015 Masq 0 0 0\n"
  distinct_ips := by decide
  ips_lt := by decide
  distinct_slots := by decide
  slots_lt := by decide

/-- A clock of the scaler that shows second 1. -/
def scalerSecond : ScalerClock := ⟨fun _ => 1000, 10 ^ 9, 10 ^ 9, 10 ^ 9, 10 ^ 9, 10 ^ 9, 10 ^ 9⟩

/-- With a configuration every drain can be completed exactly when it allows no second draining
backend, or no drain at all. -/
theorem drainCompletable_config_iff [Scalar F] (config : ScaleConfig F) :
    (∀ src state clock, DrainCompletable src config state clock) ↔
      config.max_concurrent_draining ≤ 1 ∨ config.drain_threshold = 0 ∨
        2 ^ 32 ≤ config.drain_hysteresis_cycles := by
  constructor
  · intro hall
    by_contra hnot
    simp only [not_or, not_le] at hnot
    obtain ⟨hmax, hthreshold, hhysteresis⟩ := hnot
    have hactive : countU32 (oneDraining.snapshot.activeBackends scalerSecond) = 2 := by
      decide +kernel
    have hsessions : totalSessions (oneDraining.snapshot.activeBackends scalerSecond) = 0 := by
      decide +kernel
    have hdraining : oneDraining.snapshot.drainingCount = 1 := by decide +kernel
    have hdue : DrainDue oneDraining.snapshot
      (oneDraining.snapshot.activeBackends scalerSecond) config
        { ScalerState.default with drain_cycles := 2 ^ 32 - 2 } scalerSecond := by
      refine ⟨by omega, ⟨_, rfl, by decide⟩, by omega, ?_, ?_, fun last hlast => by cases hlast⟩
      · rw [hsessions, hactive]
        omega
      · show config.drain_hysteresis_cycles ≤ (2 ^ 32 - 2 + 1) % 2 ^ 32
        omega
    have hzero : ∃ b ∈ oneDraining.snapshot.activeBackends scalerSecond, b.sessions = 0 := by
      decide +kernel
    have hlt := (drainCompletable_iff _ _ _ _).mp (hall oneDraining _ scalerSecond) hdue hzero _ rfl
    exact absurd hlt (by decide +kernel)
  · intro hconfig src state clock
    refine (drainCompletable_iff src config state clock).mpr fun hdue _ group hgroup => ?_
    obtain ⟨group', hgroup', hmin⟩ := hdue.aboveMin
    obtain rfl := Option.some.inj (hgroup.symm.trans hgroup')
    have hdraining := hdue.draining
    have hgate : 0 < config.drain_threshold := lt_of_le_of_lt (Nat.zero_le _) hdue.gate
    have hhysteresis := hdue.hysteresis
    obtain ⟨b, hb⟩ : ∃ b, b ∈ src.snapshot.activeBackends clock := by
      refine List.exists_mem_of_ne_nil _ fun hnil => ?_
      have hseveral := hdue.several
      simp [hnil, countU32] at hseveral
    rw [drainingCount_eq hb] at hdraining
    omega

end Completable

/-- With one backend draining in a group of three that must keep two, the scaler drains another. -/
theorem drain_below_min : ¬ ∀ src (config : ScaleConfig ℚ) state clock,
    DrainCompletable src config state clock := by
  intro h
  obtain ⟨group, hgroup, hle⟩ := h oneDraining defaultConfig
    { ScalerState.default with drain_cycles := 2 } scalerSecond _ _ (exec_answering okReply _)
    (weightFile 167772181) (mem_answering_of_op (by decide +kernel))
  obtain rfl := Option.some.inj hgroup
  exact absurd hle (by decide +kernel)

end Aerosuite.Scale
