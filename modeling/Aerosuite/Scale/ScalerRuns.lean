import Aerosuite.Library.History
import Aerosuite.Scale.Completable

/-! Runs of the scaler over the cycles of one daemon.  The snapshots are arbitrary, and every
request may fail. -/

namespace Aerosuite.Scale

open Program History

variable {F : Type}

/-- A pass of the scaler: what it looks at, the state before it, what it does, and the state after
it. -/
structure ScalerPass (F : Type) where
  src : Sources
  clock : ScalerClock
  before : ScalerState F
  trace : List (Event Eff Eff.Reply)
  after : ScalerState F

namespace ScalerPass

variable (p : ScalerPass F)

/-- The pass scales up successfully. -/
def ScaledUp : Prop := ∃ n, ⟨.setDesired n, .ok ()⟩ ∈ p.trace

/-- The pass initiates a drain. -/
def Drained : Prop := ∃ name, ⟨.writeFile name WEIGHT_DRAINING, .ok ()⟩ ∈ p.trace

/-- The addresses of the backends that drain in the snapshot. -/
def draining : Finset Ipv4Addr := (p.src.snapshot.draining.map BackendStatus.ip).toFinset

/-- The addresses of the backends that the pass tells to drain, successfully or not. -/
def chosen : Finset Ipv4Addr :=
  ((p.src.snapshot.backends.map BackendStatus.ip).filter fun ip =>
    p.trace.any fun ev =>
      match ev.op with
      | .writeFile name value => name = weightFile ip && value = WEIGHT_DRAINING
      | _ => false).toFinset

variable {p}

theorem mem_chosen {ip : Ipv4Addr} : ip ∈ p.chosen ↔
    (∃ b ∈ p.src.snapshot.backends, b.ip = ip) ∧
      ∃ r, ⟨.writeFile (weightFile ip) WEIGHT_DRAINING, r⟩ ∈ p.trace := by
  rw [chosen, List.mem_toFinset, List.mem_filter, List.mem_map, List.any_eq_true]
  refine and_congr_right fun _ => ⟨?_, ?_⟩
  · rintro ⟨⟨op, r⟩, hev, hmatch⟩
    cases op with
    | writeFile name value =>
      obtain ⟨rfl, rfl⟩ : name = weightFile ip ∧ value = WEIGHT_DRAINING := by simpa using hmatch
      exact ⟨r, hev⟩
    | _ => cases hmatch
  · rintro ⟨r, hev⟩
    exact ⟨_, hev, by simp⟩

end ScalerPass

/-- Runs of the scaler from any state, the newest pass first.  Time does not decrease. -/
inductive ScalerHistory [Scalar F] (config : ScaleConfig F) (dry_run : Bool) :
    List (ScalerPass F) → ScalerState F → Prop
  | start (state : ScalerState F) : ScalerHistory config dry_run [] state
  | pass {passes : List (ScalerPass F)} {p : ScalerPass F}
      (run : ScalerHistory config dry_run passes p.before)
      (exec : Exec (scalerRun p.src.snapshot config p.before p.clock dry_run) p.trace p.after)
      (scale_up_time : p.clock.scale_up_check ≤ p.clock.scale_up_done)
      (drain_time : p.clock.drain_check ≤ p.clock.drain_done)
      (later : ∀ q ∈ passes, q.clock.scale_up_done ≤ p.clock.scale_up_check ∧
        q.clock.drain_done ≤ p.clock.drain_check) :
      ScalerHistory config dry_run (p :: passes) p.after

/-- What a run of the scaler keeps. -/
structure SafeRun [Scalar F] (config : ScaleConfig F) (passes : List (ScalerPass F)) : Prop where
  /-- Every request asks for one instance more, and for no more than the maximum. -/
  raises : ∀ p ∈ passes, ∀ (n : ℕ) r, ⟨.setDesired n, r⟩ ∈ p.trace →
    ∃ group, p.src.snapshot.asg_group = some group ∧ (n : ℤ) = group.desired_capacity + 1 ∧
      (n : ℤ) ≤ group.max_size
  scaleUpsApart : Spaced ScalerPass.ScaledUp (fun p => p.clock.scale_up_check)
    (fun p => p.clock.scale_up_done) (config.scale_up_cooldown_secs * 10 ^ 9) passes
  drainsApart : Spaced ScalerPass.Drained (fun p => p.clock.drain_check)
    (fun p => p.clock.drain_done) (config.drain_cooldown_secs * 10 ^ 9) passes
  oneDrain : ∀ p ∈ passes, (p.trace.filter (·.op.writesFile)).length ≤ 1
  /-- When the others only take backends out of draining, the number of draining backends stays
  bounded. -/
  bounded : (∀ p ∈ passes.getLast?, p.draining.card ≤ config.max_concurrent_draining) →
    passes.IsChain (fun later earlier => later.draining ⊆ earlier.draining ∪ earlier.chosen) →
      ∀ p ∈ passes, (p.draining ∪ p.chosen).card ≤ config.max_concurrent_draining
  failedScaleUp : ∀ p ∈ passes, ∀ n e, ⟨.setDesired n, .error e⟩ ∈ p.trace →
    p.after.last_scale_up = p.before.last_scale_up ∧ ∃ reading, ⟨.readNetDev, reading⟩ ∈ p.trace ∧
      p.after.scale_up_cycles = (scaleUpCounted (p.src.snapshot.activeBackends p.clock) config
        p.before p.clock reading).scale_up_cycles
  failedDrain : ∀ p ∈ passes, ∀ name value e, ⟨.writeFile name value, .error e⟩ ∈ p.trace →
    p.after.last_drain = p.before.last_drain ∧
      p.after.drain_cycles = (p.before.drain_cycles + 1) % 2 ^ 32

section Pass

variable [Scalar F] {config : ScaleConfig F} {dry_run : Bool} {p : ScalerPass F}

theorem setDesired_mem_filter {t requests : List (Event Eff Eff.Reply)}
    (hfilter : t.filter (·.op.setsCapacity) = requests) {n : ℕ} {r : Except String Unit}
    (hmem : ⟨.setDesired n, r⟩ ∈ t) : ⟨.setDesired n, r⟩ ∈ requests := by
  rw [← hfilter]
  exact List.mem_filter.mpr ⟨hmem, rfl⟩

theorem writeFile_mem_filter {t requests : List (Event Eff Eff.Reply)}
    (hfilter : t.filter (·.op.writesFile) = requests) {name value : String}
    {r : Except String Unit} (hmem : ⟨.writeFile name value, r⟩ ∈ t) :
    ⟨.writeFile name value, r⟩ ∈ requests := by
  rw [← hfilter]
  exact List.mem_filter.mpr ⟨hmem, rfl⟩

theorem filter_dry (h : Exec (scalerRun p.src.snapshot config p.before p.clock true)
    p.trace p.after) :
    p.trace.filter (·.op.setsCapacity) = [] ∧ p.trace.filter (·.op.writesFile) = [] := by
  have hread := scalerRun_dry.exec h
  constructor
  · refine List.filter_eq_nil_iff.mpr fun ev hev => ?_
    rw [hread ev hev]
    exact Bool.false_ne_true
  · refine List.filter_eq_nil_iff.mpr fun ev hev => ?_
    rw [hread ev hev]
    exact Bool.false_ne_true

theorem scaleUp_cases
    (h : Exec (scalerRun p.src.snapshot config p.before p.clock dry_run) p.trace p.after) :
    p.trace.filter (·.op.setsCapacity) = [] ∧
        (dry_run = false → p.after.last_scale_up = p.before.last_scale_up) ∨
      ∃ group reading r, p.src.snapshot.asg_group = some group ∧
        ScaleUpDue (p.src.snapshot.activeBackends p.clock) config p.before p.clock reading group ∧
        ⟨.readNetDev, reading⟩ ∈ p.trace ∧
        p.trace.filter (·.op.setsCapacity) = [⟨.setDesired group.raised, r⟩] ∧
        p.after.last_scale_up =
          (if r.isOk then some p.clock.scale_up_done else p.before.last_scale_up) ∧
        p.after.scale_up_cycles = if r.isOk then 0 else
          (scaleUpCounted (p.src.snapshot.activeBackends p.clock) config p.before p.clock
            reading).scale_up_cycles := by
  cases dry_run with
  | true => exact .inl ⟨(filter_dry h).1, fun hdry => by cases hdry⟩
  | false =>
    rcases exec_scalerRun_scaleUp h with ⟨hnone, hlast⟩ | hdue
    · exact .inl ⟨hnone, fun _ => hlast⟩
    · exact .inr hdue

theorem drain_cases
    (h : Exec (scalerRun p.src.snapshot config p.before p.clock dry_run) p.trace p.after) :
    p.trace.filter (·.op.writesFile) = [] ∧
        (dry_run = false → p.after.last_drain = p.before.last_drain) ∨
      ∃ b r, b ∈ p.src.snapshot.activeBackends p.clock ∧
        DrainDue p.src.snapshot (p.src.snapshot.activeBackends p.clock) config p.before p.clock ∧
        p.trace.filter (·.op.writesFile) = [⟨.writeFile (weightFile b.ip) WEIGHT_DRAINING, r⟩] ∧
        p.after.last_drain = (if r.isOk then some p.clock.drain_done else p.before.last_drain) ∧
        p.after.drain_cycles = if r.isOk then 0 else (p.before.drain_cycles + 1) % 2 ^ 32 := by
  cases dry_run with
  | true => exact .inl ⟨(filter_dry h).2, fun hdry => by cases hdry⟩
  | false =>
    rcases exec_scalerRun_drain h with ⟨hnone, hlast⟩ | hdue
    · exact .inl ⟨hnone, fun _ => hlast⟩
    · exact .inr hdue

theorem setDesired_raises
    (h : Exec (scalerRun p.src.snapshot config p.before p.clock dry_run) p.trace p.after)
    (hcapacity : ∀ group, p.src.snapshot.asg_group = some group →
      0 ≤ group.desired_capacity ∧ group.desired_capacity < 2 ^ 32 - 1)
    {n : ℕ} {r : Except String Unit} (hmem : ⟨.setDesired n, r⟩ ∈ p.trace) :
    ∃ group, p.src.snapshot.asg_group = some group ∧ (n : ℤ) = group.desired_capacity + 1 ∧
      (n : ℤ) ≤ group.max_size := by
  rcases scaleUp_cases h with ⟨hnone, -⟩ | ⟨group, reading, r', hgroup, hdue, -, hfilter, -⟩
  · cases setDesired_mem_filter hnone hmem
  · obtain ⟨hlow, hhigh⟩ := hcapacity group hgroup
    obtain ⟨rfl, -⟩ : n = group.raised ∧ HEq r r' := by
      simpa using setDesired_mem_filter hfilter hmem
    have hraised : (group.raised : ℤ) = group.desired_capacity + 1 := by
      rw [raised_eq]
      omega
    have hmax := hdue.allowed.belowMax
    exact ⟨group, hgroup, hraised, by omega⟩

theorem failed_scaleUp
    (h : Exec (scalerRun p.src.snapshot config p.before p.clock dry_run) p.trace p.after)
    {n : ℕ} {e : String} (hmem : ⟨.setDesired n, .error e⟩ ∈ p.trace) :
    p.after.last_scale_up = p.before.last_scale_up ∧ ∃ reading, ⟨.readNetDev, reading⟩ ∈ p.trace ∧
      p.after.scale_up_cycles = (scaleUpCounted (p.src.snapshot.activeBackends p.clock) config
        p.before p.clock reading).scale_up_cycles := by
  rcases scaleUp_cases h with ⟨hnone, -⟩ | ⟨group, reading, r, -, -, hread, hfilter, hlast, hcycles⟩
  · cases setDesired_mem_filter hnone hmem
  · obtain rfl : r = .error e := by
      cases List.mem_singleton.mp (setDesired_mem_filter hfilter hmem)
      rfl
    exact ⟨hlast, reading, hread, hcycles⟩

theorem failed_drain
    (h : Exec (scalerRun p.src.snapshot config p.before p.clock dry_run) p.trace p.after)
    {name value e : String} (hmem : ⟨.writeFile name value, .error e⟩ ∈ p.trace) :
    p.after.last_drain = p.before.last_drain ∧
      p.after.drain_cycles = (p.before.drain_cycles + 1) % 2 ^ 32 := by
  rcases drain_cases h with ⟨hnone, -⟩ | ⟨b, r, -, -, hfilter, hlast, hcycles⟩
  · cases writeFile_mem_filter hnone hmem
  · obtain rfl : r = .error e := by
      cases List.mem_singleton.mp (writeFile_mem_filter hfilter hmem)
      rfl
    exact ⟨hlast, hcycles⟩

/-- A scale-up that succeeds is stamped, and waits for the cooldown after the stamp. -/
theorem scaledUp_stamp
    (h : Exec (scalerRun p.src.snapshot config p.before p.clock false) p.trace p.after) :
    ¬ p.ScaledUp ∧ p.after.last_scale_up = p.before.last_scale_up ∨
      p.after.last_scale_up = some p.clock.scale_up_done ∧
        ∀ t, p.before.last_scale_up = some t →
          config.scale_up_cooldown_secs * 10 ^ 9 ≤ p.clock.scale_up_check - t := by
  rcases scaleUp_cases h with ⟨hnone, hlast⟩ | ⟨group, reading, r, -, hdue, -, hfilter, hlast, -⟩
  · refine .inl ⟨fun ⟨n, hmem⟩ => ?_, hlast rfl⟩
    cases setDesired_mem_filter hnone hmem
  · cases r with
    | ok a =>
      refine .inr ⟨hlast, fun t ht => ?_⟩
      have hcounted := (scaleUpCounted_eq (p.src.snapshot.activeBackends p.clock) config p.before
        p.clock reading).1
      exact (Nat.le_div_iff_mul_le (by decide)).mp (hdue.allowed.cooldown t (hcounted.trans ht))
    | error e =>
      refine .inl ⟨fun ⟨n, hmem⟩ => ?_, hlast⟩
      cases List.mem_singleton.mp (setDesired_mem_filter hfilter hmem)

/-- A drain that is initiated is stamped, and waits for the cooldown after the stamp. -/
theorem drained_stamp
    (h : Exec (scalerRun p.src.snapshot config p.before p.clock false) p.trace p.after) :
    ¬ p.Drained ∧ p.after.last_drain = p.before.last_drain ∨
      p.after.last_drain = some p.clock.drain_done ∧
        ∀ t, p.before.last_drain = some t →
          config.drain_cooldown_secs * 10 ^ 9 ≤ p.clock.drain_check - t := by
  rcases drain_cases h with ⟨hnone, hlast⟩ | ⟨b, r, -, hdue, hfilter, hlast, -⟩
  · refine .inl ⟨fun ⟨n, hmem⟩ => ?_, hlast rfl⟩
    cases writeFile_mem_filter hnone hmem
  · cases r with
    | ok a =>
      exact .inr ⟨hlast, fun t ht => (Nat.le_div_iff_mul_le (by decide)).mp (hdue.cooldown t ht)⟩
    | error e =>
      refine .inl ⟨fun ⟨n, hmem⟩ => ?_, hlast⟩
      cases List.mem_singleton.mp (writeFile_mem_filter hfilter hmem)

theorem one_write
    (h : Exec (scalerRun p.src.snapshot config p.before p.clock dry_run) p.trace p.after) :
    (p.trace.filter (·.op.writesFile)).length ≤ 1 := by
  rcases drain_cases h with ⟨hnone, -⟩ | ⟨b, r, -, -, hfilter, -⟩
  · rw [hnone]
    exact Nat.zero_le _
  · rw [hfilter]
    exact Nat.le_refl _

/-- When at most the permitted number of backends drains, a pass adds one only below that number. -/
theorem card_draining_le
    (h : Exec (scalerRun p.src.snapshot config p.before p.clock dry_run) p.trace p.after)
    (hdraining : p.draining.card ≤ config.max_concurrent_draining) :
    (p.draining ∪ p.chosen).card ≤ config.max_concurrent_draining := by
  rcases drain_cases h with ⟨hnone, -⟩ | ⟨b, r, hb, hdue, hfilter, -⟩
  · have hempty : p.chosen = ∅ := by
      refine Finset.eq_empty_of_forall_notMem fun ip hip => ?_
      obtain ⟨-, r, hev⟩ := ScalerPass.mem_chosen.mp hip
      cases writeFile_mem_filter hnone hev
    rw [hempty, Finset.union_empty]
    exact hdraining
  · have hbelow := hdue.draining
    have hle : p.draining.card ≤ p.src.snapshot.draining.length := by
      apply (List.toFinset_card_le _).trans
      rw [List.length_map]
    have hsub : p.chosen ⊆ {b.ip} := by
      intro ip hip
      obtain ⟨⟨b', hb', rfl⟩, r', hev⟩ := ScalerPass.mem_chosen.mp hip
      have heq := List.mem_singleton.mp (writeFile_mem_filter hfilter hev)
      have hname := (Eff.writeFile.inj (congrArg Event.op heq)).1
      exact Finset.mem_singleton.mpr (weightFile_injOn (Sources.backend_ip_lt hb')
        (Sources.backend_ip_lt (List.mem_filter.mp hb).1) hname)
    have hchosen := Finset.card_le_card hsub
    rw [Finset.card_singleton] at hchosen
    rw [drainingCount_eq hb] at hbelow
    have hunion := Finset.card_union_le p.draining p.chosen
    omega

end Pass

section Runs

variable [Scalar F] {config : ScaleConfig F} {dry_run : Bool} {passes : List (ScalerPass F)}
  {state : ScalerState F}

theorem ScalerHistory.exec (run : ScalerHistory config dry_run passes state) {p : ScalerPass F}
    (hp : p ∈ passes) :
    Exec (scalerRun p.src.snapshot config p.before p.clock dry_run) p.trace p.after := by
  induction run with
  | start => cases hp
  | pass _ hexec _ _ _ ih =>
    rcases List.mem_cons.mp hp with rfl | hp
    · exact hexec
    · exact ih hp

/-- The state keeps the time of the last scale-up, and so the scale-ups are apart. -/
theorem ScalerHistory.scaleUps (run : ScalerHistory config false passes state) :
    Covers ScalerPass.ScaledUp (fun p => p.clock.scale_up_done) passes state.last_scale_up ∧
      Spaced ScalerPass.ScaledUp (fun p => p.clock.scale_up_check) (fun p => p.clock.scale_up_done)
        (config.scale_up_cooldown_secs * 10 ^ 9) passes := by
  induction run with
  | start => exact ⟨List.forall_mem_nil _, List.Pairwise.nil⟩
  | pass _ hexec htime _ later ih =>
    exact Spaced.step ih.1 ih.2 (fun q hq => (later q hq).1) htime (scaledUp_stamp hexec)

/-- The state keeps the time of the last drain, and so the drains are apart. -/
theorem ScalerHistory.drains (run : ScalerHistory config false passes state) :
    Covers ScalerPass.Drained (fun p => p.clock.drain_done) passes state.last_drain ∧
      Spaced ScalerPass.Drained (fun p => p.clock.drain_check) (fun p => p.clock.drain_done)
        (config.drain_cooldown_secs * 10 ^ 9) passes := by
  induction run with
  | start => exact ⟨List.forall_mem_nil _, List.Pairwise.nil⟩
  | pass _ hexec _ htime later ih =>
    exact Spaced.step ih.1 ih.2 (fun q hq => (later q hq).2) htime (drained_stamp hexec)

/-- The number of draining backends stays bounded when the others only take backends out. -/
theorem ScalerHistory.bounded (run : ScalerHistory config dry_run passes state)
    (hstart : ∀ p ∈ passes.getLast?, p.draining.card ≤ config.max_concurrent_draining)
    (hothers : passes.IsChain fun later earlier => later.draining ⊆
      earlier.draining ∪ earlier.chosen) :
    ∀ p ∈ passes, (p.draining ∪ p.chosen).card ≤ config.max_concurrent_draining := by
  induction run with
  | start => exact fun p hp => by cases hp
  | @pass passes p _ hexec _ _ _ ih =>
    have hp : p.draining.card ≤ config.max_concurrent_draining ∧
        ∀ q ∈ passes, (q.draining ∪ q.chosen).card ≤ config.max_concurrent_draining := by
      cases passes with
      | nil => exact ⟨hstart p rfl, fun q hq => by cases hq⟩
      | cons q passes =>
        obtain ⟨hsub, hothers⟩ := List.isChain_cons_cons.mp hothers
        have hpasses := ih (by rwa [List.getLast?_cons_cons] at hstart) hothers
        exact ⟨(Finset.card_le_card hsub).trans (hpasses q List.mem_cons_self), hpasses⟩
    intro q hq
    rcases List.mem_cons.mp hq with rfl | hq
    · exact card_draining_le hexec hp.1
    · exact hp.2 q hq

/-- Every run of the scaler is safe when the capacities that AWS reports are in range. -/
theorem scaler_safe (run : ScalerHistory config dry_run passes state)
    (hcapacity : ∀ p ∈ passes, ∀ group, p.src.snapshot.asg_group = some group →
      0 ≤ group.desired_capacity ∧ group.desired_capacity < 2 ^ 32 - 1) :
    SafeRun config passes where
  raises p hp _ _ hmem := setDesired_raises (run.exec hp) (hcapacity p hp) hmem
  scaleUpsApart := by
    cases dry_run with
    | true =>
      refine spaced_of_not fun p hp ⟨n, hmem⟩ => ?_
      cases setDesired_mem_filter (filter_dry (run.exec hp)).1 hmem
    | false => exact run.scaleUps.2
  drainsApart := by
    cases dry_run with
    | true =>
      refine spaced_of_not fun p hp ⟨name, hmem⟩ => ?_
      cases writeFile_mem_filter (filter_dry (run.exec hp)).2 hmem
    | false => exact run.drains.2
  oneDrain p hp := one_write (run.exec hp)
  bounded := run.bounded
  failedScaleUp p hp _ _ hmem := failed_scaleUp (run.exec hp) hmem
  failedDrain p hp _ _ _ hmem := failed_drain (run.exec hp) hmem

end Runs

/-- A pass in which each operation gets the reply that `ρ` gives. -/
def ScalerPass.answered [Scalar F] (ρ : (e : Eff) → e.Reply) (config : ScaleConfig F)
    (src : Sources) (clock : ScalerClock) (before : ScalerState F) : ScalerPass F where
  src := src
  clock := clock
  before := before
  trace := (answering ρ (scalerRun src.snapshot config before clock false)).1
  after := (answering ρ (scalerRun src.snapshot config before clock false)).2

/-- The scaler drains a second backend of `oneDraining`. -/
def drainingPass : ScalerPass ℚ :=
  .answered okReply defaultConfig oneDraining scalerSecond
    { ScalerState.default with drain_cycles := 2 }

/-- The cycle after it, in which both backends drain. -/
def waitingPass : ScalerPass ℚ :=
  .answered okReply defaultConfig
    { oneDraining with
      weights := [⟨167772180, .draining⟩, ⟨167772181, .draining⟩, ⟨167772182, .active⟩]
      distinct_ips := by decide
      ips_lt := by decide }
    ⟨fun _ => 1500, 15 * 10 ^ 8, 15 * 10 ^ 8, 15 * 10 ^ 8, 15 * 10 ^ 8, 15 * 10 ^ 8, 15 * 10 ^ 8⟩
    drainingPass.after

/-- The two passes are a safe run. -/
theorem scaler_safe_drainingPass : drainingPass.Drained ∧
    SafeRun defaultConfig [waitingPass, drainingPass] := by
  refine ⟨⟨weightFile 167772181, mem_answering_of_op (by decide +kernel)⟩, ?_⟩
  have run : ScalerHistory defaultConfig false [waitingPass, drainingPass] waitingPass.after := by
    refine .pass (.pass (.start _) (exec_answering _ _) (le_refl _) (le_refl _) ?_)
      (exec_answering _ _) (le_refl _) (le_refl _) ?_
    · intro q hq
      cases hq
    · intro q hq
      obtain rfl := List.mem_singleton.mp hq
      exact ⟨by decide, by decide⟩
  refine scaler_safe run fun p hp group hgroup => ?_
  have hgroups : p.src.snapshot.asg_group = some ⟨"pool", 3, 2, 4⟩ := by
    rcases List.mem_cons.mp hp with rfl | hp
    · rfl
    · obtain rfl := List.mem_singleton.mp hp
      rfl
  obtain rfl := Option.some.inj (hgroups.symm.trans hgroup)
  exact ⟨by decide, by decide⟩

end Aerosuite.Scale
