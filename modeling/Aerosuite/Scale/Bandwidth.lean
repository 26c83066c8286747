import Aerosuite.Scale.Slope

/-! The bandwidth of the interface, in exact arithmetic.  The smoothed rate is the exponential
average of the rates between readings, and the raw one the newest of them.  A counter that goes
backwards gives no rate, so the raw one stays as it was, although it is documented to be zero. -/

namespace Aerosuite.Scale

open Program History Average

section Readings

/-- The newest successful reading. -/
def baseline (readings : List (Except String IfaceSnapshot)) : Option IfaceSnapshot :=
  readings.findSome? Except.toOption

/-- The bytes per second from one reading to the next, when they are more than a tenth of a second
apart and the counter has not gone backwards. -/
def measuredRate (prev current : IfaceSnapshot) : Option ℚ :=
  if 10 ^ 8 < current.at_ns - prev.at_ns ∧ prev.rx_bytes ≤ current.rx_bytes then
    some (((current.rx_bytes : ℚ) - prev.rx_bytes) / (((current.at_ns : ℚ) - prev.at_ns) / 10 ^ 9))
  else none

/-- The rates that a history of readings measures, the newest first. -/
def rates : List (Except String IfaceSnapshot) → List ℚ
  | [] => []
  | .error _ :: older => rates older
  | .ok current :: older =>
    match (baseline older).bind fun prev => measuredRate prev current with
    | none => rates older
    | some rate => rate :: rates older

theorem measuredRate_nonneg {prev current : IfaceSnapshot} {rate : ℚ}
    (h : measuredRate prev current = some rate) : 0 ≤ rate := by
  rw [measuredRate] at h
  split_ifs at h with hcond
  obtain rfl := Option.some.inj h
  have hbytes : (prev.rx_bytes : ℚ) ≤ current.rx_bytes := Nat.cast_le.mpr hcond.2
  have htime : (prev.at_ns : ℚ) ≤ current.at_ns := Nat.cast_le.mpr (by omega)
  apply div_nonneg (sub_nonneg.mpr hbytes)
  exact div_nonneg (sub_nonneg.mpr htime) (by norm_num)

theorem rates_nonneg (readings : List (Except String IfaceSnapshot)) :
    ∀ rate ∈ rates readings, 0 ≤ rate := by
  induction readings with
  | nil => nofun
  | cons reading older ih =>
    cases reading with
    | error e => exact ih
    | ok current =>
      rw [rates]
      cases hrate : (baseline older).bind fun prev => measuredRate prev current with
      | none => exact ih
      | some rate =>
        obtain ⟨prev, -, hrate⟩ := Option.bind_eq_some_iff.mp hrate
        exact List.forall_mem_cons.mpr ⟨measuredRate_nonneg hrate, ih⟩

theorem tenth_lt_iff (ns : ℕ) : (tenth : ℚ) < secsF64 ns ↔ 10 ^ 8 < ns := by
  rw [tenth_eq, secsF64_lt]

/-- A successful reading becomes the baseline, and updates the two rates when it measures one. -/
theorem observeBandwidth_eq (state : ScalerState ℚ) (current : IfaceSnapshot) :
    state.observeBandwidth current =
      match state.bw_prev.bind fun prev => measuredRate prev current with
      | none => { state with bw_prev := some current }
      | some rate =>
        { state with
          bw_prev := some current
          bw_raw_bps := Scalar.truncU64 rate
          bw_smoothed := BW_EMA_ALPHA * rate + (1 - BW_EMA_ALPHA) * state.bw_smoothed } := by
  rw [ScalerState.observeBandwidth]
  cases hprev : state.bw_prev with
  | none => rfl
  | some prev =>
    dsimp only [Option.bind_some]
    rw [measuredRate]
    by_cases hcond : 10 ^ 8 < current.at_ns - prev.at_ns ∧ prev.rx_bytes ≤ current.rx_bytes
    · have hlong := (tenth_lt_iff _).mpr hcond.1
      have hbytes : ((current.rx_bytes - prev.rx_bytes : ℕ) : ℚ) =
          (current.rx_bytes : ℚ) - prev.rx_bytes := Nat.cast_sub hcond.2
      have htime : (secsF64 (current.at_ns - prev.at_ns) : ℚ) =
          ((current.at_ns : ℚ) - prev.at_ns) / 10 ^ 9 := by
        rw [secsF64_eq, Nat.cast_sub (by omega)]
      rw [if_neg (by omega), if_pos ⟨hlong, hcond.2⟩, if_pos hcond, htime, ← hbytes]
      rfl
    · rw [if_neg hcond]
      split_ifs with hback hmeasured
      · rfl
      · exact absurd ⟨(tenth_lt_iff _).mp hmeasured.1, hmeasured.2⟩ hcond
      · rfl

/-- The newest rate, truncated to a `u64`, and zero before the first one. -/
def rawRate (readings : List (Except String IfaceSnapshot)) : ℕ :=
  ((rates readings).head?.map Scalar.truncU64).getD 0

theorem truncU64_eq_zero_iff {rate : ℚ} : Scalar.truncU64 rate = 0 ↔ rate < 1 := by
  show min rate.floor.toNat (2 ^ 64 - 1) = 0 ↔ rate < 1
  have hfloor : rate.floor < 1 ↔ rate < 1 := Rat.floor_lt_iff
  rw [← hfloor]
  omega

theorem rawRate_eq_zero_iff {readings : List (Except String IfaceSnapshot)} :
    rawRate readings = 0 ↔ ∀ rate ∈ (rates readings).head?, rate < 1 := by
  rw [rawRate]
  cases (rates readings).head? with
  | none => simp
  | some rate => simpa using truncU64_eq_zero_iff

/-- The bandwidth in the state is that of a history of readings. -/
structure BandwidthOf (readings : List (Except String IfaceSnapshot)) (state : ScalerState ℚ) :
    Prop where
  prev : state.bw_prev = baseline readings
  smoothed : state.bw_smoothed = smoothed BW_EMA_ALPHA (rates readings)
  raw : state.bw_raw_bps = rawRate readings

theorem BandwidthOf.step {readings : List (Except String IfaceSnapshot)} {state : ScalerState ℚ}
    (h : BandwidthOf readings state) (reading : Except String IfaceSnapshot) :
    BandwidthOf (reading :: readings) (state.afterReading reading) := by
  cases reading with
  | error e => exact ⟨h.prev, h.smoothed, h.raw⟩
  | ok current =>
    rw [ScalerState.afterReading, observeBandwidth_eq, h.prev]
    cases hrate : (baseline readings).bind fun prev => measuredRate prev current with
    | none =>
      have hrates : rates (.ok current :: readings) = rates readings := by rw [rates, hrate]
      exact ⟨rfl, by rw [hrates]; exact h.smoothed, by rw [rawRate, hrates]; exact h.raw⟩
    | some rate =>
      have hrates : rates (.ok current :: readings) = rate :: rates readings := by
        rw [rates, hrate]
      refine ⟨rfl, ?_, ?_⟩
      · rw [hrates, smoothed_cons, ← h.smoothed]
      · rw [rawRate, hrates]
        rfl

end Readings

section Runs

/-- The readings of the interface in a run. -/
def readings (cycles : List (ScalerCycle ℚ)) : List (Except String IfaceSnapshot) :=
  cycles.filterMap ScalerCycle.reading

variable {config : ScaleConfig ℚ} {dry_run : Bool} {cycles older : List (ScalerCycle ℚ)}
  {c : ScalerCycle ℚ} {state : ScalerState ℚ}

theorem bandwidth_of_run (run : ScalerCycles config dry_run cycles state) :
    BandwidthOf (readings cycles) state := by
  induction run with
  | start => exact ⟨rfl, rfl, rfl⟩
  | @cycle cycles c run exec ih =>
    rcases ScalerCycle.measured exec with ⟨hnone, hsame⟩ | ⟨reading, hsome, hsame⟩
    · have hreading : c.reading = none := by rw [ScalerCycle.reading, hnone]; rfl
      have hreadings : readings (c :: cycles) = readings cycles :=
        List.filterMap_cons_none hreading
      rw [hreadings]
      exact ⟨hsame.bw_prev.trans ih.prev, hsame.bw_smoothed.trans ih.smoothed,
        hsame.bw_raw_bps.trans ih.raw⟩
    · have hreading : c.reading = some (ifaceReading c.clock.net_dev reading) := by
        rw [ScalerCycle.reading, hsome]
        rfl
      have hreadings : readings (c :: cycles) =
          ifaceReading c.clock.net_dev reading :: readings cycles :=
        List.filterMap_cons_some hreading
      rw [hreadings]
      have hstep := ih.step (ifaceReading c.clock.net_dev reading)
      exact ⟨hsame.bw_prev.trans hstep.prev, hsame.bw_smoothed.trans hstep.smoothed,
        hsame.bw_raw_bps.trans hstep.raw⟩

/-- The reading of the cycle, if it succeeds. -/
def ScalerCycle.iface (c : ScalerCycle ℚ) : Option IfaceSnapshot := c.reading.bind Except.toOption

/-- The counter goes backwards in a cycle, which follows the older ones. -/
def Backwards (c : ScalerCycle ℚ) (older : List (ScalerCycle ℚ)) : Prop :=
  ∃ prev ∈ baseline (readings older), ∃ current ∈ c.iface, current.rx_bytes < prev.rx_bytes

instance (c : ScalerCycle ℚ) (older : List (ScalerCycle ℚ)) : Decidable (Backwards c older) :=
  inferInstanceAs (Decidable (∃ prev ∈ baseline (readings older), ∃ current ∈ c.iface,
    current.rx_bytes < prev.rx_bytes))

/-- What the estimator of the bandwidth promises for a cycle, which follows the older ones. -/
structure BandwidthEstimate (c : ScalerCycle ℚ) (older : List (ScalerCycle ℚ)) : Prop where
  nonneg : 0 ≤ c.after.bw_smoothed
  bounded : c.after.bw_smoothed ≤ largest (rates (readings (c :: older)))
  /-- A successful reading is the baseline of the next one. -/
  advances : ∀ current ∈ c.iface, c.after.bw_prev = some current
  skipped : Backwards c older → c.after.bw_smoothed = c.before.bw_smoothed
  zeroed : Backwards c older ∨ baseline (readings older) = none → c.after.bw_raw_bps = 0

/-- Whenever the counter goes backwards, no rate has been measured before, or the newest one is
less than a byte per second. -/
def QuietResets (cycles : List (ScalerCycle ℚ)) : Prop :=
  ∀ c older, c :: older <:+ cycles → Backwards c older →
    ∀ rate ∈ (rates (readings older)).head?, rate < 1

theorem rates_of_no_baseline {readings : List (Except String IfaceSnapshot)}
    (h : baseline readings = none) : rates readings = [] := by
  induction readings with
  | nil => rfl
  | cons reading older ih =>
    cases reading with
    | error e => exact ih h
    | ok current => cases h

theorem reading_of_iface {current : IfaceSnapshot} (h : current ∈ c.iface) :
    readings (c :: older) = .ok current :: readings older := by
  obtain ⟨reading, hreading, hok⟩ := Option.bind_eq_some_iff.mp h
  cases reading with
  | error e => cases hok
  | ok current' =>
    obtain rfl := Option.some.inj hok
    exact List.filterMap_cons_some hreading

/-- The first successful reading measures no rate. -/
theorem rates_of_first (h : baseline (readings older) = none) :
    rates (readings (c :: older)) = [] := by
  cases hreading : c.reading with
  | none =>
    rw [readings, List.filterMap_cons_none hreading]
    exact rates_of_no_baseline h
  | some reading =>
    rw [readings, List.filterMap_cons_some hreading]
    cases reading with
    | error e => exact rates_of_no_baseline h
    | ok current =>
      rw [← readings, rates, h]
      exact rates_of_no_baseline h

/-- No rate is measured when the counter goes backwards. -/
theorem rates_of_backwards (h : Backwards c older) :
    rates (readings (c :: older)) = rates (readings older) := by
  obtain ⟨prev, hprev, current, hcurrent, hlt⟩ := h
  have hrate : measuredRate prev current = none := by
    rw [measuredRate, if_neg]
    omega
  rw [reading_of_iface hcurrent, rates, Option.mem_def.mp hprev]
  dsimp only [Option.bind_some]
  rw [hrate]

theorem ScalerCycles.of_suffix (run : ScalerCycles config dry_run cycles state)
    (hsuffix : c :: older <:+ cycles) :
    ScalerCycles config dry_run older c.before ∧
      ScalerCycles config dry_run (c :: older) c.after := by
  induction run with
  | start => cases List.suffix_nil.mp hsuffix
  | @cycle cycles c' run exec ih =>
    rcases List.suffix_cons_iff.mp hsuffix with heq | hsuffix
    · obtain ⟨rfl, rfl⟩ := List.cons.inj heq
      exact ⟨run, .cycle run exec⟩
    · exact ih hsuffix

/-- A cycle of a run is estimated as promised unless its counter goes backwards after a rate of a
byte per second or more. -/
theorem bandwidthEstimate_iff (hbefore : BandwidthOf (readings older) c.before)
    (hafter : BandwidthOf (readings (c :: older)) c.after) :
    BandwidthEstimate c older ↔
      (Backwards c older → ∀ rate ∈ (rates (readings older)).head?, rate < 1) := by
  have hraw : Backwards c older →
      (c.after.bw_raw_bps = 0 ↔ ∀ rate ∈ (rates (readings older)).head?, rate < 1) := by
    intro hback
    rw [hafter.raw, rawRate_eq_zero_iff, rates_of_backwards hback]
  constructor
  · intro h hback
    exact (hraw hback).mp (h.zeroed (.inl hback))
  · intro hquiet
    have hα₀ : (0 : ℚ) ≤ BW_EMA_ALPHA := by decide +kernel
    have hα₁ : (BW_EMA_ALPHA : ℚ) ≤ 1 := by decide +kernel
    refine ⟨?_, ?_, fun current hcurrent => ?_, fun hback => ?_, ?_⟩
    · rw [hafter.smoothed]
      exact smoothed_nonneg hα₀ hα₁ (rates_nonneg _)
    · rw [hafter.smoothed]
      exact smoothed_le_largest hα₀ hα₁
    · rw [hafter.prev, reading_of_iface hcurrent]
      rfl
    · rw [hafter.smoothed, hbefore.smoothed, rates_of_backwards hback]
    · rintro (hback | hnone)
      · exact (hraw hback).mpr (hquiet hback)
      · rw [hafter.raw, rawRate, rates_of_first hnone]
        rfl

/-- In a run from the default state the bandwidth is estimated as promised in every cycle exactly
when its resets are quiet. -/
theorem bandwidth_estimated_iff (run : ScalerCycles config dry_run cycles state) :
    (∀ c older, c :: older <:+ cycles → BandwidthEstimate c older) ↔ QuietResets cycles := by
  have hcycle : ∀ c older, c :: older <:+ cycles → (BandwidthEstimate c older ↔
      (Backwards c older → ∀ rate ∈ (rates (readings older)).head?, rate < 1)) := by
    intro c older hsuffix
    obtain ⟨hbefore, hafter⟩ := run.of_suffix hsuffix
    exact bandwidthEstimate_iff (bandwidth_of_run hbefore) (bandwidth_of_run hafter)
  constructor
  · intro h c older hsuffix
    exact (hcycle c older hsuffix).mp (h c older hsuffix)
  · intro h c older hsuffix
    exact (hcycle c older hsuffix).mpr (h c older hsuffix)

end Runs

/-- A cycle in which the interface has received this many bytes. -/
def countedInput (second bytes : ℕ) : ScalerInput where
  snapshot := busySnapshot 1200 3
  clock := clockAt second
  reply
    | .readNetDev => .ok s!"eth0: {bytes} 0"
    | e => okReply e

/-- The counter goes backwards after the first reading. -/
def quietRun : List (ScalerCycle ℚ) :=
  runOn defaultConfig [countedInput 2 5, countedInput 1 (10 ^ 10)]

/-- The counter goes backwards after a rate of ten gigabytes per second. -/
def resetRun : List (ScalerCycle ℚ) :=
  runOn defaultConfig [countedInput 3 5, countedInput 2 (10 ^ 10), countedInput 1 0]

/-- The reset of the run is quiet. -/
theorem bandwidth_estimated_quietRun : (∃ c older, c :: older <:+ quietRun ∧ Backwards c older) ∧
    ∀ c older, c :: older <:+ quietRun → BandwidthEstimate c older := by
  refine ⟨⟨_, _, List.suffix_refl _, by decide +kernel⟩, ?_⟩
  refine (bandwidth_estimated_iff (runOn_cycles defaultConfig _)).mpr fun c older hsuffix _ => ?_
  have hrates : rates (readings older) = [] := by
    rcases List.suffix_cons_iff.mp hsuffix with heq | hsuffix
    · obtain ⟨-, rfl⟩ := List.cons.inj heq
      decide +kernel
    · rcases List.suffix_cons_iff.mp hsuffix with heq | hsuffix
      · obtain ⟨-, rfl⟩ := List.cons.inj heq
        decide +kernel
      · cases List.suffix_nil.mp hsuffix
  rw [hrates]
  nofun

/-- After the reset the raw rate is still that of the cycle before. -/
theorem bandwidth_raw_stale : ¬ ∀ (config : ScaleConfig ℚ) cycles state,
    ScalerCycles config false cycles state →
      ∀ c older, c :: older <:+ cycles → BandwidthEstimate c older := by
  intro h
  have hestimate := h defaultConfig resetRun _ (runOn_cycles _ _) _ _ (List.suffix_refl _)
  have hzero := hestimate.zeroed (.inl (by decide +kernel))
  exact absurd hzero (by decide +kernel)

end Aerosuite.Scale
