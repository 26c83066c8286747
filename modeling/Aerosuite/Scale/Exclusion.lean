import Aerosuite.Scale.Hysteresis

/-! Scale-up and drain in one call of the scaler.  The two evaluations are independent.  The one
rounds the average of the sessions up and the other down, so both can act when the average lies
between the threshold of the drain less one and that threshold. -/

namespace Aerosuite.Scale

open Program

variable {F : Type} {config : ScaleConfig F} {c : ScalerCycle F} {dry_run : Bool}

theorem avgSessions_le (active : List BackendStatus) :
    avgSessions active ≤ totalSessions active / countU32 active + 1 := by
  unfold avgSessions
  rcases Nat.eq_zero_or_pos (countU32 active) with hzero | hpos
  · simp [hzero]
  · have hmod : (totalSessions active + countU32 active - 1) % 2 ^ 32 ≤
        totalSessions active + countU32 active := (Nat.mod_le _ _).trans (by omega)
    apply (Nat.div_le_div_right hmod).trans
    rw [Nat.add_div_right _ hpos]

variable [Scalar F]

/-- Each trigger needs an average that is not below its threshold. -/
theorem le_avgSessions_of_fired {active : List BackendStatus} {state : ScalerState F}
    {clock : ScalerClock} {reading : Except String String}
    (hfired : (scaleTriggers active config state clock reading).fired = true) :
    config.hard_conn_threshold ≤ avgSessions active ∨
      config.slope_low_floor ≤ avgSessions active := by
  simp only [Triggers.fired, scaleTriggers, triggers, Bool.or_eq_true, Bool.and_eq_true,
    decide_eq_true_eq, Option.any_eq_true] at hfired
  rcases hfired with hhard | ⟨hlow, -⟩ | ⟨bw, -, -, hlow⟩
  · exact .inl hhard
  · exact .inr hlow
  · exact .inr hlow

theorem avg_of_scaleUp
    (h : Exec (scalerRun c.snapshot config c.before c.clock false) c.trace c.after)
    (hup : c.ScaleUp) :
    config.hard_conn_threshold ≤ avgSessions c.active ∨
      config.slope_low_floor ≤ avgSessions c.active := by
  obtain ⟨n, r, hmem⟩ := hup
  rcases exec_scalerRun_scaleUp h with ⟨hnone, -⟩ | ⟨group, reading, r', -, hdue, -⟩
  · cases setDesired_mem_filter hnone hmem
  · exact le_avgSessions_of_fired hdue.fired

theorem avg_of_drain
    (h : Exec (scalerRun c.snapshot config c.before c.clock false) c.trace c.after)
    (hdrain : c.Drain) :
    totalSessions c.active / countU32 c.active < config.drain_threshold := by
  obtain ⟨name, r, hmem⟩ := hdrain
  rcases exec_scalerRun_drain h with ⟨hnone, -⟩ | ⟨b, r', -, hdue, -⟩
  · cases writeFile_mem_filter hnone hmem
  · exact hdue.gate

/-- A call that scales up and drains has an average that the drain rounds to its threshold less one
and the scale-up to the threshold, which is the one of a trigger as well. -/
theorem scaleUp_and_drain_boundary
    (h : Exec (scalerRun c.snapshot config c.before c.clock dry_run) c.trace c.after)
    (hlow : config.drain_threshold ≤ config.slope_low_floor)
    (hhard : config.drain_threshold ≤ config.hard_conn_threshold)
    (hup : c.ScaleUp) (hdrain : c.Drain) :
    totalSessions c.active / countU32 c.active + 1 = config.drain_threshold ∧
      avgSessions c.active = config.drain_threshold ∧
      (config.slope_low_floor = config.drain_threshold ∨
        config.hard_conn_threshold = config.drain_threshold) := by
  obtain rfl := not_dry_of_acts h (.inl hup)
  have hle := avgSessions_le c.active
  have hgate := avg_of_drain h hdrain
  rcases avg_of_scaleUp h hup with hfired | hfired
  · exact ⟨by omega, by omega, .inr (by omega)⟩
  · exact ⟨by omega, by omega, .inl (by omega)⟩

/-- Two backends have 999 sessions, and one more confirmation is due to
scale up and to drain. -/
def boundaryCycle : ScalerCycle ℚ :=
  let before : ScalerState ℚ :=
    { ScalerState.default with scale_up_cycles := 2, drain_cycles := 2, bw_prev := some ⟨0, 0⟩ }
  let snapshot := pairSnapshot 1000 998 (some ⟨"pool", 3, 1, 4⟩)
  let result := answering (busyReply 1) (scalerRun snapshot defaultConfig before (clockAt 1) false)
  ⟨snapshot, clockAt 1, before, result.1, result.2⟩

theorem boundaryCycle_exec : Exec (scalerRun boundaryCycle.snapshot defaultConfig
    boundaryCycle.before boundaryCycle.clock false) boundaryCycle.trace boundaryCycle.after :=
  exec_answering _ _

theorem boundaryCycle_acts : boundaryCycle.ScaleUp ∧ boundaryCycle.Drain :=
  ⟨⟨4, .ok (), mem_answering_of_op (by decide +kernel)⟩,
    ⟨weightFile 167772180, .ok (), mem_answering_of_op (by decide +kernel)⟩⟩

/-- With the default thresholds one call scales up and drains. -/
theorem scaleUp_and_drain : ¬ ∀ (config : ScaleConfig ℚ) (c : ScalerCycle ℚ),
    Exec (scalerRun c.snapshot config c.before c.clock false) c.trace c.after →
      config.drain_threshold ≤ config.slope_low_floor →
        config.drain_threshold ≤ config.hard_conn_threshold → ¬ (c.ScaleUp ∧ c.Drain) := by
  intro h
  exact h defaultConfig boundaryCycle boundaryCycle_exec (by decide) (by decide) boundaryCycle_acts

/-- The average of `boundaryCycle` lies at the boundary. -/
theorem scaleUp_and_drain_boundary_999 :
    totalSessions boundaryCycle.active / countU32 boundaryCycle.active + 1 = 500 ∧
      avgSessions boundaryCycle.active = 500 :=
  have h := scaleUp_and_drain_boundary boundaryCycle_exec (by decide) (by decide)
    boundaryCycle_acts.1 boundaryCycle_acts.2
  ⟨h.1, h.2.1⟩

end Aerosuite.Scale
