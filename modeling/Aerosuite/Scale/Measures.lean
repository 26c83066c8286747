import Aerosuite.Scale.Hysteresis

/-! What the scaler measures over its cycles: the window of the slope and the bandwidth of the
interface.  A cycle that reads the interface updates both, and nothing else in a cycle does. -/

namespace Aerosuite.Scale

open Program

variable {F : Type}

/-- `after` agrees with `before` on the window of the slope and on the bandwidth. -/
structure SameMeasures (before after : ScalerState F) : Prop where
  slope_samples : after.slope_samples = before.slope_samples
  bw_prev : after.bw_prev = before.bw_prev
  bw_smoothed : after.bw_smoothed = before.bw_smoothed
  bw_raw_bps : after.bw_raw_bps = before.bw_raw_bps

theorem SameMeasures.refl (state : ScalerState F) : SameMeasures state state := ⟨rfl, rfl, rfl, rfl⟩

theorem SameMeasures.trans {s₁ s₂ s₃ : ScalerState F} (h₁ : SameMeasures s₁ s₂)
    (h₂ : SameMeasures s₂ s₃) : SameMeasures s₁ s₃ where
  slope_samples := h₂.slope_samples.trans h₁.slope_samples
  bw_prev := h₂.bw_prev.trans h₁.bw_prev
  bw_smoothed := h₂.bw_smoothed.trans h₁.bw_smoothed
  bw_raw_bps := h₂.bw_raw_bps.trans h₁.bw_raw_bps

section Pass

variable {snapshot : SystemSnapshot} {active : List BackendStatus} {config : ScaleConfig F}
  {state after : ScalerState F} {clock : ScalerClock} {dry_run : Bool}
  {t : List (Event Eff Eff.Reply)}

theorem drainDecision_measures :
    SameMeasures state (drainDecision snapshot active config state clock).1 := by
  unfold drainDecision
  split
  · exact .refl state
  · dsimp only
    split_ifs <;> exact ⟨rfl, rfl, rfl, rfl⟩

theorem evaluateDrain_measures :
    (evaluateDrain snapshot active config state clock dry_run).Returns (SameMeasures state) := by
  have hdecision : SameMeasures state (drainDecision snapshot active config state clock).1 :=
    drainDecision_measures
  unfold evaluateDrain
  dsimp only
  split
  · exact hdecision
  · refine Returns.bind (returns_true _) fun r _ => ?_
    cases r with
    | ok a => exact hdecision.trans ⟨rfl, rfl, rfl, rfl⟩
    | error e => exact hdecision

theorem evaluateDrain_reads_nothing :
    (evaluateDrain snapshot active config state clock dry_run).Always (· ≠ .readNetDev) := by
  unfold evaluateDrain
  dsimp only
  split
  · trivial
  · refine Always.bind ?_ fun r => by cases r <;> trivial
    unfold writeWeight
    split
    · trivial
    · exact Always.context ⟨nofun, fun r => trivial⟩

theorem attemptScaleUp_measures {group : AsgGroupInfo} :
    (attemptScaleUp group config state clock dry_run).Returns (SameMeasures state) := by
  unfold attemptScaleUp
  split_ifs
  · exact .refl state
  · exact .refl state
  · exact .refl state
  · exact ⟨rfl, rfl, rfl, rfl⟩
  · intro r
    cases r with
    | ok a => exact ⟨rfl, rfl, rfl, rfl⟩
    | error e => exact .refl state

variable [Scalar F]

/-- A pass of the scaler measures nothing, or it reads the interface first, and what it does after
that leaves the measures alone. -/
theorem exec_scalerRun_measures
    (h : Exec (scalerRun snapshot config state clock dry_run) t after) :
    (∀ ev ∈ t, ev.op ≠ .readNetDev) ∧ SameMeasures state after ∨
      ∃ reading rest, t = ⟨.readNetDev, reading⟩ :: rest ∧
        SameMeasures
          (scaleUpCounted (snapshot.activeBackends clock) config state clock reading) after := by
  rcases exec_scalerRun_cases h with ⟨-, rfl, rfl⟩ | ⟨-, t₁, scaled, t₂, rfl, h₁, h₂⟩
  · exact .inl ⟨nofun, ⟨rfl, rfl, rfl, rfl⟩⟩
  · have hdrain := evaluateDrain_measures.exec h₂
    cases hgroup : snapshot.asg_group with
    | none =>
      obtain ⟨rfl, rfl⟩ := exec_evaluateScaleUp_of_none hgroup h₁
      exact .inl ⟨evaluateDrain_reads_nothing.exec h₂, hdrain⟩
    | some group =>
      rw [evaluateScaleUp_eq hgroup] at h₁
      obtain ⟨reading, rest, rfl, hrest⟩ := exec_call.mp h₁
      refine .inr ⟨reading, rest ++ t₂, rfl, SameMeasures.trans ?_ hdrain⟩
      split at hrest
      · exact attemptScaleUp_measures.exec hrest
      · obtain ⟨-, rfl⟩ := exec_ret.mp hrest
        exact .refl _

end Pass

namespace ScalerCycle

/-- What the cycle reads of `/proc/net/dev`, if it reads it. -/
def observed (c : ScalerCycle F) : Option (Except String String) :=
  c.trace.findSome? fun ev =>
    match ev with
    | ⟨.readNetDev, reading⟩ => some reading
    | _ => none

/-- The reading of the interface in the cycle. -/
def reading (c : ScalerCycle F) : Option (Except String IfaceSnapshot) :=
  c.observed.map (ifaceReading c.clock.net_dev)

/-- The sample that the cycle adds to the window of the slope. -/
def sample (c : ScalerCycle F) : Option (ℕ × ℕ) :=
  c.observed.map fun _ => (c.clock.scale_up, avgSessions c.active)

theorem measured [Scalar F] {c : ScalerCycle F} {config : ScaleConfig F} {dry_run : Bool}
    (h : Exec (scalerRun c.snapshot config c.before c.clock dry_run) c.trace c.after) :
    c.observed = none ∧ SameMeasures c.before c.after ∨
      ∃ reading, c.observed = some reading ∧
        SameMeasures (scaleUpCounted c.active config c.before c.clock reading) c.after := by
  rcases exec_scalerRun_measures h with ⟨hnot, hsame⟩ | ⟨reading, rest, ht, hsame⟩
  · refine .inl ⟨?_, hsame⟩
    rw [observed, List.findSome?_eq_none_iff]
    rintro ⟨op, r⟩ hev
    cases op with
    | readNetDev => exact absurd rfl (hnot _ hev)
    | _ => rfl
  · exact .inr ⟨reading, by rw [observed, ht]; rfl, hsame⟩

end ScalerCycle

end Aerosuite.Scale
