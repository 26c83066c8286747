import Aerosuite.Scale.Hysteresis

/-! The backend that `evaluate_drain` chooses.  Its order is that of the sessions, which are the
connections halved, so a backend with a single connection counts as one without sessions. -/

namespace Aerosuite.Scale

open Program

/-- The active connections that IPVS counts for a backend. -/
def BackendStatus.connections (b : BackendStatus) : ℕ :=
  (b.ipvs.map IpvsBackend.active_connections).getD 0

/-- The choice that a measure of the load asks for: a backend without load if there is one, and
else, when no drain is in progress, one with the most. -/
structure DrainChoice (load : BackendStatus → ℕ) (draining : ℕ) (active : List BackendStatus)
    (b : BackendStatus) : Prop where
  eligible : b ∈ active
  free_or_most : load b = 0 ∨
    draining = 0 ∧ (∀ a ∈ active, load a ≠ 0) ∧ ∀ a ∈ active, load a ≤ load b
  free_first : (∃ a ∈ active, load a = 0) → load b = 0

section Choice

variable {snapshot : SystemSnapshot} {active : List BackendStatus} {a b : BackendStatus}

theorem sessions_eq_zero_iff : b.sessions = 0 ↔ b.connections ≤ 1 := by
  show b.connections / 2 = 0 ↔ b.connections ≤ 1
  omega

theorem connections_le_of_sessions_le (h : a.sessions ≤ b.sessions) :
    a.connections ≤ b.connections + 1 := by
  have hle : a.connections / 2 ≤ b.connections / 2 := h
  omega

theorem le_most_sessions {most : BackendStatus} (hmost : (bySessions active).getLast? = some most)
    (ha : a ∈ active) : a.sessions ≤ most.sessions := by
  have hsorted :=
    List.pairwise_insertionSort (fun a b : BackendStatus => a.sessions ≤ b.sessions) active
  obtain ⟨front, hfront⟩ := List.getLast?_eq_some_iff.mp hmost
  have hmem : a ∈ bySessions active := (List.mem_insertionSort _).mpr ha
  unfold bySessions at hfront hmem
  rw [hfront] at hsorted hmem
  rcases List.mem_append.mp hmem with hin | hlast
  · exact (List.pairwise_append.mp hsorted).2.2 a hin most List.mem_cons_self
  · obtain rfl := List.mem_singleton.mp hlast
    exact le_refl _

/-- The candidate is the choice by sessions. -/
theorem drainCandidate_choice (h : drainCandidate snapshot active = some b) :
    DrainChoice BackendStatus.sessions snapshot.drainingCount active b := by
  have hmem := drainCandidate_mem h
  rw [drainCandidate] at h
  cases hleast : (bySessions active).head? with
  | none =>
    rw [hleast] at h
    cases h
  | some least =>
    rw [hleast] at h
    dsimp only at h
    split_ifs at h with hzero hdraining
    · obtain rfl := Option.some.inj h
      exact ⟨hmem, .inl hzero, fun _ => hzero⟩
    · -- The least of the sessions are not zero, so none are.
      have hloaded : ∀ a ∈ active, a.sessions ≠ 0 := by
        intro a ha
        have hle := least_sessions_le hleast ha
        omega
      refine ⟨hmem, .inr ⟨hdraining, hloaded, fun a ha => le_most_sessions h ha⟩, ?_⟩
      rintro ⟨a, ha, hnone⟩
      exact absurd hnone (hloaded a ha)

/-- The choice by sessions, and what it says about connections: next to a backend that has a
session, no backend has two connections more. -/
structure ChosenBySessions (snapshot : SystemSnapshot) (active : List BackendStatus)
    (b : BackendStatus) : Prop where
  choice : DrainChoice BackendStatus.sessions snapshot.drainingCount active b
  connections : b.connections ≤ 1 ∨ snapshot.drainingCount = 0 ∧
    ∀ a ∈ active, 1 < a.connections ∧ a.connections ≤ b.connections + 1

theorem DrainChoice.chosen
    (h : DrainChoice BackendStatus.sessions snapshot.drainingCount active b) :
    ChosenBySessions snapshot active b := by
  refine ⟨h, ?_⟩
  rcases h.free_or_most with hzero | ⟨hdraining, hloaded, hmost⟩
  · exact .inl (sessions_eq_zero_iff.mp hzero)
  · refine .inr ⟨hdraining, fun a ha => ⟨?_, connections_le_of_sessions_le (hmost a ha)⟩⟩
    have hne := mt sessions_eq_zero_iff.mpr (hloaded a ha)
    omega

end Choice

section Drain

variable {F : Type} (snapshot : SystemSnapshot) (active : List BackendStatus)
  (config : ScaleConfig F) (state : ScalerState F) (clock : ScalerClock)

/-- Whatever `evaluate_drain` decides to drain is the choice by sessions, and it writes no file
but the weight of that backend. -/
theorem drain_choice :
    (∀ b, (drainDecision snapshot active config state clock).2 = some b →
      ChosenBySessions snapshot active b) ∧
    ∀ t state', Exec (evaluateDrain snapshot active config state clock false) t state' →
      ∀ ev ∈ t, ∃ b r, ChosenBySessions snapshot active b ∧
        ev = ⟨.writeFile (weightFile b.ip) WEIGHT_DRAINING, r⟩ := by
  have hchosen : ∀ b, (drainDecision snapshot active config state clock).2 = some b →
      ChosenBySessions snapshot active b := fun b hb =>
    (drainCandidate_choice (drainDecision_eq_some.mp hb).2).chosen
  refine ⟨hchosen, fun t state' hexec ev hev => ?_⟩
  rcases exec_evaluateDrain hexec with ⟨-, rfl, -⟩ | ⟨b, r, hb, rfl, -⟩
  · cases hev
  · obtain rfl := List.mem_singleton.mp hev
    exact ⟨b, r, hchosen b hb, rfl⟩

end Drain

/-- Two active backends with these connections, in a group that can lose one. -/
def drainPair (a b : ℕ) : SystemSnapshot := pairSnapshot a b (some ⟨"pool", 3, 1, 4⟩)

def drainPairActive (a b : ℕ) : List BackendStatus := (drainPair a b).activeBackends (clockAt 1)

/-- What `evaluate_drain` drains of the two in the third cycle with an open gate. -/
def drainedOfPair (a b : ℕ) : Option BackendStatus :=
  (drainDecision (drainPair a b) (drainPairActive a b) defaultConfig
    { ScalerState.default with drain_cycles := 2 } (clockAt 1)).2

theorem drainedOfPair_eq_some {m n c : ℕ}
    (h : (drainedOfPair m n).map BackendStatus.connections = some c) :
    ∃ b, drainedOfPair m n = some b ∧ b.connections = c :=
  Option.map_eq_some_iff.mp h

/-- Of a backend with four connections and one with one, the second is drained. -/
theorem drain_choice_pair : ∃ b, drainedOfPair 4 1 = some b ∧ b.connections = 1 ∧
    ChosenBySessions (drainPair 4 1) (drainPairActive 4 1) b := by
  obtain ⟨b, hb, hone⟩ := drainedOfPair_eq_some (c := 1) (m := 4) (n := 1) (by decide +kernel)
  exact ⟨b, hb, hone, (drain_choice _ _ _ _ _).1 b hb⟩

/-- The choice is not the one by connections: of backends with one and with no connection the first
is drained, and of backends with three and with two the second. -/
theorem drain_not_by_connections :
    (∃ b, drainedOfPair 1 0 = some b ∧ b.connections = 1 ∧
      ¬ DrainChoice BackendStatus.connections (drainPair 1 0).drainingCount
        (drainPairActive 1 0) b) ∧
    ∃ b, drainedOfPair 3 2 = some b ∧ b.connections = 2 ∧
      ¬ DrainChoice BackendStatus.connections (drainPair 3 2).drainingCount
        (drainPairActive 3 2) b := by
  constructor
  · obtain ⟨b, hb, hone⟩ := drainedOfPair_eq_some (c := 1) (m := 1) (n := 0) (by decide +kernel)
    refine ⟨b, hb, hone, fun h => ?_⟩
    have hidle : ∃ a ∈ drainPairActive 1 0, a.connections = 0 := by
      simpa using List.any_eq_true.mp
        (show (drainPairActive 1 0).any (·.connections = 0) = true by decide +kernel)
    have hzero := h.free_first hidle
    omega
  · obtain ⟨b, hb, htwo⟩ := drainedOfPair_eq_some (c := 2) (m := 3) (n := 2) (by decide +kernel)
    refine ⟨b, hb, htwo, fun h => ?_⟩
    have hmore : ∃ a ∈ drainPairActive 3 2, a.connections = 3 := by
      simpa using List.any_eq_true.mp
        (show (drainPairActive 3 2).any (·.connections = 3) = true by decide +kernel)
    obtain ⟨a, ha, hthree⟩ := hmore
    rcases h.free_or_most with hzero | ⟨-, -, hmost⟩
    · omega
    · have hle := hmost a ha
      omega

end Aerosuite.Scale
