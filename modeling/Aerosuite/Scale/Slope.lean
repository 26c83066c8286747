import Aerosuite.Library.Average
import Aerosuite.Scale.Measures
import Mathlib.Tactic.Linarith
import Mathlib.Tactic.NormNum

/-! The slope of the sessions, in exact arithmetic.  The scaler keeps the samples of its seven
newest evaluated cycles, and the slope is the mean of the rates from the usable ones to the
present. -/

namespace Aerosuite.Scale

open Program History Average

section Window

variable {F : Type} [Scalar F] {config : ScaleConfig F} {dry_run : Bool}
  {cycles : List (ScalerCycle F)} {state : ScalerState F}

theorem pushSample_recent (h : List (ℕ × ℕ)) (sample : ℕ × ℕ) :
    pushSample (recent 7 h) sample = recent 7 (sample :: h) :=
  (recent_cons 7 sample h).symm

/-- The window has the samples of the newest cycles that took one. -/
theorem slope_samples_eq (run : ScalerCycles config dry_run cycles state) :
    state.slope_samples = recent 7 (cycles.filterMap ScalerCycle.sample) := by
  induction run with
  | start => rfl
  | @cycle cycles c run exec ih =>
    rcases ScalerCycle.measured exec with ⟨hnone, hsame⟩ | ⟨reading, hsome, hsame⟩
    · have hsample : c.sample = none := by rw [ScalerCycle.sample, hnone]; rfl
      rw [hsame.slope_samples, ih, List.filterMap_cons_none hsample]
    · have hsample : c.sample = some (c.clock.scale_up, avgSessions c.active) := by
        rw [ScalerCycle.sample, hsome]
        rfl
      obtain ⟨prev, smoothed, raw, heq⟩ :=
        c.before.afterReading_eq (ifaceReading c.clock.net_dev reading)
      rw [hsame.slope_samples, List.filterMap_cons_some hsample, ← pushSample_recent, ← ih,
        scaleUpCounted, heq]

/-- The window has at most seven samples, the oldest first. -/
theorem window_kept (run : ScalerCycles config dry_run cycles state)
    (hclock : cycles.Pairwise fun later earlier => earlier.clock.scale_up ≤ later.clock.scale_up) :
    state.slope_samples.length ≤ 7 ∧ state.slope_samples.Pairwise fun s s' => s.1 ≤ s'.1 := by
  rw [slope_samples_eq run]
  refine ⟨length_recent_le 7 _, List.Pairwise.sublist (recent_sublist 7 _) ?_⟩
  rw [List.pairwise_reverse, List.pairwise_filterMap]
  refine hclock.imp fun {later earlier} hle s hs s' hs' => ?_
  obtain ⟨_, -, rfl⟩ := Option.map_eq_some_iff.mp hs
  obtain ⟨_, -, rfl⟩ := Option.map_eq_some_iff.mp hs'
  exact hle

end Window

section Slope

variable {samples : List (ℕ × ℕ)} {now_sessions now : ℕ}

/-- A number of nanoseconds in minutes. -/
def minutes (ns : ℕ) : ℚ := (ns : ℚ) / 10 ^ 9 / 60

/-- The samples that the slope is computed from: of the six newest, those that are at least a tenth
of a second old. -/
def usedSamples (samples : List (ℕ × ℕ)) (now : ℕ) : List (ℕ × ℕ) :=
  (samples.reverse.take 6).filter fun s => s.1 + 10 ^ 8 ≤ now

/-- The sessions per minute from a sample to the present. -/
def sessionRate (now_sessions now : ℕ) (sample : ℕ × ℕ) : ℚ :=
  ((now_sessions : ℚ) - sample.2) / (minutes now - minutes sample.1)

theorem secsF64_eq (ns : ℕ) : (secsF64 ns : ℚ) = ns / 10 ^ 9 := by
  have hsplit : ((10 ^ 9 * (ns / 10 ^ 9) + ns % 10 ^ 9 : ℕ) : ℚ) = ns :=
    congrArg Nat.cast (Nat.div_add_mod ns (10 ^ 9))
  show ((ns / 10 ^ 9 : ℕ) : ℚ) + ((ns % 10 ^ 9 : ℕ) : ℚ) / ((10 ^ 9 : ℕ) : ℚ) = ns / 10 ^ 9
  rw [← hsplit]
  push_cast
  ring

theorem secsF64_lt {m n : ℕ} : (secsF64 m : ℚ) < secsF64 n ↔ m < n := by
  rw [secsF64_eq, secsF64_eq, div_lt_div_iff_of_pos_right (by norm_num), Nat.cast_lt]

theorem tenth_eq : (tenth : ℚ) = secsF64 (10 ^ 8) := by
  rw [secsF64_eq]
  show ((1 : ℕ) : ℚ) / ((10 : ℕ) : ℚ) = ((10 ^ 8 : ℕ) : ℚ) / 10 ^ 9
  norm_num

theorem minutes_sub {t : ℕ} (h : t ≤ now) :
    minutes now - minutes t = (secsF64 (now - t) : ℚ) / 60 := by
  rw [secsF64_eq, minutes, minutes, Nat.cast_sub h]
  ring

/-- A lag contributes the rate of its sample when the sample is old enough. -/
theorem lagSlope_eq (now_sessions now : ℕ) (sample : ℕ × ℕ) :
    (lagSlope now_sessions now sample : Option ℚ) =
      if sample.1 + 10 ^ 8 ≤ now then some (sessionRate now_sessions now sample) else none := by
  obtain ⟨t_past, sessions_past⟩ := sample
  rw [lagSlope]
  dsimp only
  by_cases hage : t_past + 10 ^ 8 ≤ now
  · have hold : ¬ (secsF64 (now - t_past) : ℚ) < tenth := by
      rw [tenth_eq, secsF64_lt]
      omega
    rw [if_neg (by omega), if_neg hold, if_pos hage, sessionRate, minutes_sub (by omega),
      div_div_eq_mul_div, mul_div_right_comm]
    rfl
  · rw [if_neg hage]
    split_ifs with hpast hyoung
    · rfl
    · rfl
    · rw [tenth_eq, secsF64_lt] at hyoung
      omega

theorem filterMap_lagSlope (lags : List (ℕ × ℕ)) :
    lags.filterMap (lagSlope now_sessions now : ℕ × ℕ → Option ℚ) =
      (lags.filter fun s => s.1 + 10 ^ 8 ≤ now).map (sessionRate now_sessions now) := by
  rw [← List.filterMap_eq_map, List.filterMap_filter]
  refine List.filterMap_congr fun s _ => ?_
  rw [lagSlope_eq]
  simp only [decide_eq_true_eq, Function.comp_apply]

/-- The slope is the mean of the rates of the used samples, if there are any. -/
theorem computeSmoothedSlope_eq (samples : List (ℕ × ℕ)) (now_sessions now : ℕ) :
    computeSmoothedSlope samples now_sessions now =
      if usedSamples samples now = [] then none
      else some (mean (sessionRate now_sessions now) (usedSamples samples now)) := by
  unfold computeSmoothedSlope
  dsimp only
  rw [foldl_sum_count (lagSlope now_sessions now)]
  · rw [filterMap_lagSlope, List.length_map, Nat.zero_add, usedSamples, mean]
    simp only [List.length_eq_zero_iff]
    split_ifs with hnone
    · rfl
    · exact congrArg (fun total : ℚ => some (total / _)) (zero_add _)
  · intro acc s h
    simp only [h]
  · intro acc s slope h
    simp only [h]

/-- What an estimate of the slope promises for a window at a time, for each number of sessions at
that time. -/
structure SlopeEstimate (samples : List (ℕ × ℕ)) (now : ℕ) (estimate : ℕ → Option ℚ) : Prop where
  /-- It uses exactly the newest six samples that are old enough. -/
  uses : ∀ s v, estimate s = some v → v = mean (sessionRate s now) (usedSamples samples now)
  none_iff : ∀ s, estimate s = none ↔ usedSamples samples now = []
  between : ∀ s v, estimate s = some v →
    (∃ past ∈ usedSamples samples now, sessionRate s now past ≤ v) ∧
      ∃ past ∈ usedSamples samples now, v ≤ sessionRate s now past
  monotone : ∀ s s' v v', s ≤ s' → estimate s = some v → estimate s' = some v' → v ≤ v'
  /-- On a line it is the slope of the line. -/
  line : ∀ (s : ℕ) v (base r : ℚ), (s : ℚ) = base + r * minutes now →
    (∀ past ∈ usedSamples samples now, (past.2 : ℚ) = base + r * minutes past.1) →
      estimate s = some v → v = r

theorem minutes_lt_of_used {past : ℕ × ℕ} (h : past ∈ usedSamples samples now) :
    minutes past.1 < minutes now := by
  have hage : past.1 + 10 ^ 8 ≤ now := by simpa using (List.mem_filter.mp h).2
  have hlt : (past.1 : ℚ) < now := Nat.cast_lt.mpr (by omega)
  rw [minutes, minutes]
  gcongr

theorem smoothed_slope_estimate (samples : List (ℕ × ℕ)) (now : ℕ) :
    SlopeEstimate samples now fun s => computeSmoothedSlope samples s now := by
  have hsome : ∀ s v, computeSmoothedSlope samples s now = some v →
      usedSamples samples now ≠ [] ∧ v = mean (sessionRate s now) (usedSamples samples now) := by
    intro s v h
    rw [computeSmoothedSlope_eq] at h
    split_ifs at h with hnone
    exact ⟨hnone, (Option.some.inj h).symm⟩
  refine ⟨fun s v h => (hsome s v h).2, fun s => ?_, ?_, ?_, ?_⟩
  · rw [computeSmoothedSlope_eq]
    split_ifs with hnone <;> simp [hnone]
  · intro s v h
    obtain ⟨hne, rfl⟩ := hsome s v h
    exact ⟨exists_le_mean _ hne, exists_mean_le _ hne⟩
  · intro s s' v v' hle h h'
    obtain ⟨-, rfl⟩ := hsome s v h
    obtain ⟨-, rfl⟩ := hsome s' v' h'
    refine mean_le_mean fun past hpast => ?_
    have hpos := sub_pos.mpr (minutes_lt_of_used hpast)
    have hcast : (s : ℚ) ≤ s' := Nat.cast_le.mpr hle
    rw [sessionRate, sessionRate]
    gcongr
  · intro s v base r hnow hpast h
    obtain ⟨hne, rfl⟩ := hsome s v h
    refine mean_eq_of_forall hne fun past hused => ?_
    have hpos := sub_pos.mpr (minutes_lt_of_used hused)
    rw [sessionRate, hnow, hpast past hused, div_eq_iff hpos.ne']
    ring

end Slope

/-- In every reachable state the window has at most seven samples in the order of time, and whatever
the window and the present are, the slope is such an estimate. -/
theorem slope_estimator {config : ScaleConfig ℚ} {dry_run : Bool} {cycles : List (ScalerCycle ℚ)}
    {state : ScalerState ℚ} (run : ScalerCycles config dry_run cycles state)
    (hclock : cycles.Pairwise fun later earlier => earlier.clock.scale_up ≤ later.clock.scale_up) :
    state.slope_samples.length ≤ 7 ∧
      (state.slope_samples.Pairwise fun earlier later => earlier.1 ≤ later.1) ∧
      ∀ samples now, SlopeEstimate samples now fun s => computeSmoothedSlope samples s now :=
  ⟨(window_kept run hclock).1, (window_kept run hclock).2, smoothed_slope_estimate⟩

/-- The estimator in the run of `confirmedRun`, whose window has four samples. -/
theorem slope_estimator_confirmedRun :
    (lastState confirmedRun).slope_samples.length = 4 ∧
      ((lastState confirmedRun).slope_samples.Pairwise fun earlier later => earlier.1 ≤ later.1) ∧
      ∀ samples now, SlopeEstimate samples now fun s => computeSmoothedSlope samples s now := by
  have hclock : confirmedRun.Pairwise fun later earlier =>
      earlier.clock.scale_up ≤ later.clock.scale_up := by decide +kernel
  obtain ⟨-, horder, hestimate⟩ := slope_estimator (runOn_cycles defaultConfig _) hclock
  exact ⟨by decide +kernel, horder, hestimate⟩

end Aerosuite.Scale
