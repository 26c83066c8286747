import Aerosuite.Scale.ScalerSteps
import Aerosuite.Scale.Weights

/-! A master cycle that drains a backend.  The scaler counts the active backends of the snapshot,
while the cleanup of the same cycle may have disabled some of them. -/

namespace Aerosuite.Scale

open Program

variable {F : Type}

/-- The cleanup and then the scaler of one cycle of the master, on one snapshot. -/
def masterCycle [Scalar F] (snapshot : SystemSnapshot) (config : ScaleConfig F)
    (state : CleanupState × ScalerState F) (clock : PassClock) (scalerClock : ScalerClock)
    (term_decrements_capacity : Bool) (orphan_grace_secs : ℕ) :
    Daemon (CleanupState × ScalerState F) := do
  let cleanup_state ←
    cleanupRun snapshot clock false true term_decrements_capacity state.1 orphan_grace_secs
  let scaler_state ← scalerRun snapshot config state.2 scalerClock false
  pure (cleanup_state, scaler_state)

section Scaler

variable {snapshot : SystemSnapshot} {config : ScaleConfig F} {state : ScalerState F}
  {clock : ScalerClock}

/-- The operation writes no weight file. -/
def Eff.NoWrite (e : Eff) : Prop := ∀ name value, e ≠ .writeFile name value

variable [Scalar F]

/-- The scaler writes no weight but that of the backend that it drains. -/
theorem exec_scalerRun {t : List (Event Eff Eff.Reply)} {state' : ScalerState F}
    (h : Exec (scalerRun snapshot config state clock false) t state') :
    ∃ (ops : List Eff) (drained : Option BackendStatus), (∀ e ∈ ops, e.NoWrite) ∧
      (∀ b, drained = some b ↔
        DrainDue snapshot (snapshot.activeBackends clock) config state clock ∧
          drainCandidate snapshot (snapshot.activeBackends clock) = some b) ∧
      t.map Event.op =
        ops ++ drained.toList.map fun b => .writeFile (weightFile b.ip) WEIGHT_DRAINING := by
  rcases exec_scalerRun_cases h with ⟨hcount, rfl, -⟩ | ⟨-, t₁, scaled, t₂, rfl, h₁, h₂⟩
  · refine ⟨[], none, by simp, fun b => ⟨fun hb => (by cases hb), fun ⟨hdue, _⟩ => ?_⟩, rfl⟩
    have hseveral := hdue.several
    omega
  · obtain ⟨hcycles, hlast⟩ := drain_kept_of_scaleUp h₁
    refine ⟨t₁.map Event.op,
      (drainDecision snapshot (snapshot.activeBackends clock) config scaled clock).2,
        fun e he => ?_,
      fun b => drainDecision_eq_some.trans
        (and_congr_left fun _ => drainDue_congr hcycles hlast), ?_⟩
    · obtain ⟨ev, hev, rfl⟩ := List.mem_map.mp he
      intro name value heq
      rcases evaluateScaleUp_always.exec h₁ ev hev with h | ⟨-, n, h⟩ <;> cases h.symm.trans heq
    · rw [List.map_append, List.append_right_inj]
      rcases exec_evaluateDrain h₂ with ⟨hnone, rfl, -⟩ | ⟨b, r, hsome, rfl, -⟩
      · rw [hnone]
        rfl
      · rw [hsome]
        rfl

end Scaler

section Cycle

variable [Scalar F] {src : Sources} {config : ScaleConfig F} {state : CleanupState × ScalerState F}
  {clock : PassClock} {scalerClock : ScalerClock} {decrement : Bool} {grace : ℕ}

/-- In a cycle whose writes succeed, a backend other than a drained one is active afterwards. -/
def DrainKeepsActive (src : Sources) (config : ScaleConfig F) (state : CleanupState × ScalerState F)
    (clock : PassClock) (scalerClock : ScalerClock) (decrement : Bool) (grace : ℕ) : Prop :=
  ∀ t state', Exec (masterCycle src.snapshot config state clock scalerClock decrement
    grace) t state' →
    (∀ ev ∈ t, Succeeded ev) → ∀ b ∈ src.snapshot.backends,
      Eff.writeFile (weightFile b.ip) WEIGHT_DRAINING ∈ t.map Event.op →
        ∃ b' ∈ src.snapshot.backends, b' ≠ b ∧ b'.weightAfter (t.map Event.op) = .active

/-- The weights that a cycle writes: those of the cleanup and that of the drained backend. -/
theorem exec_masterCycle {t : List (Event Eff Eff.Reply)} {state' : CleanupState × ScalerState F}
    (h : Exec (masterCycle src.snapshot config state clock scalerClock decrement grace) t state')
    (hok : ∀ ev ∈ t, Succeeded ev) :
    ∃ drained : Option BackendStatus, (∀ b, drained = some b ↔
      DrainDue src.snapshot (src.snapshot.activeBackends scalerClock) config state.2 scalerClock ∧
        drainCandidate src.snapshot (src.snapshot.activeBackends scalerClock) = some b) ∧
      ∀ b ∈ src.snapshot.backends, ∀ value, Eff.writeFile (weightFile b.ip) value ∈ t.map Event.op ↔
        b.rewritten src.snapshot clock = some value ∨
        ∃ b', drained = some b' ∧ weightFile b.ip = weightFile b'.ip ∧ value = WEIGHT_DRAINING := by
  obtain ⟨t₁, _, t', rfl, hcleanup, h'⟩ := exec_bind.mp h
  obtain ⟨_, hscaler, -⟩ := exec_bind_ret.mp h'
  obtain ⟨ops, drained, hops, hdrained, hscaled⟩ :=
    exec_scalerRun hscaler
  refine ⟨drained, hdrained, fun b hb value => ?_⟩
  have hcleaned := writeFile_mem_cleanupRun hcleanup (fun ev hev => hok ev (by simp [hev])) hb value
  have hscaleUp : Eff.writeFile (weightFile b.ip) value ∉ ops := fun hmem => hops _ hmem _ value rfl
  simp only [List.map_append, hscaled, List.mem_append, hcleaned, hscaleUp,
    false_or, List.mem_map, Option.mem_toList, Eff.writeFile.injEq]
  refine or_congr_right ⟨?_, ?_⟩
  · rintro ⟨b', hb', hname, rfl⟩
    exact ⟨b', hb', hname.symm, rfl⟩
  · rintro ⟨b', hb', hname, rfl⟩
    exact ⟨b', hb', hname.symm, rfl⟩

theorem rewritten_ne_draining (b : BackendStatus) (snapshot : SystemSnapshot) (clock : PassClock) :
    b.rewritten snapshot clock ≠ some WEIGHT_DRAINING := by
  unfold BackendStatus.rewritten
  split
  · split <;> decide
  · split
    · split <;> decide
    · decide

/-- A drain leaves another backend active exactly when one other than the candidate is active after
the cleanup. -/
theorem drainKeepsActive_iff (src : Sources) (config : ScaleConfig F)
    (state : CleanupState × ScalerState F) (clock : PassClock) (scalerClock : ScalerClock)
    (decrement : Bool) (grace : ℕ) :
    DrainKeepsActive src config state clock scalerClock decrement grace ↔
      ∀ b, DrainDue src.snapshot (src.snapshot.activeBackends scalerClock) config state.2
          scalerClock →
        drainCandidate src.snapshot (src.snapshot.activeBackends scalerClock) = some b →
          ∃ b' ∈ src.snapshot.backends, b' ≠ b ∧ b'.StaysActive src.snapshot clock := by
  have hactive : ∀ b b', b ∈ src.snapshot.backends → b' ∈ src.snapshot.backends → b' ≠ b →
      ∀ ops, (∀ b'' ∈ src.snapshot.backends, ∀ value,
        Eff.writeFile (weightFile b''.ip) value ∈ ops ↔
        b''.rewritten src.snapshot clock = some value ∨
        ∃ d, some b = some d ∧ weightFile b''.ip = weightFile d.ip ∧ value = WEIGHT_DRAINING) →
      (b'.weightAfter ops = .active ↔ b'.StaysActive src.snapshot clock) := by
    intro b b' hb hb' hne ops hops
    have hname : weightFile b'.ip ≠ weightFile b.ip :=
      fun hname => hne <| Sources.backend_ext hb' hb
      (weightFile_injOn (Sources.backend_ip_lt hb') (Sources.backend_ip_lt hb) hname)
    refine weightAfter_active_iff hb' fun value => (hops b' hb' value).trans (or_iff_left ?_)
    rintro ⟨d, hd, hname', -⟩
    exact hname (hname'.trans (by rw [Option.some.inj hd]))
  have hmem : ∀ b, drainCandidate src.snapshot (src.snapshot.activeBackends scalerClock) = some b →
      b ∈ src.snapshot.backends :=
    fun b hb => List.mem_of_mem_filter (drainCandidate_mem hb)
  constructor
  · intro hkeeps b hdue hcandidate
    obtain ⟨t, state', ht, hok⟩ := exists_exec_ok
      (masterCycle src.snapshot config state clock scalerClock decrement grace)
    obtain ⟨drained, hdrained, hops⟩ := exec_masterCycle ht hok
    obtain rfl := (hdrained b).mpr ⟨hdue, hcandidate⟩
    have hb := hmem b hcandidate
    obtain ⟨b', hb', hne, hafter⟩ := hkeeps t state' ht hok b hb
      ((hops b hb _).mpr (.inr ⟨b, rfl, rfl, rfl⟩))
    exact ⟨b', hb', hne, (hactive b b' hb hb' hne _ hops).mp hafter⟩
  · intro hstays t state' ht hok b hb hdraining
    obtain ⟨drained, hdrained, hops⟩ := exec_masterCycle ht hok
    obtain ⟨b₀, rfl, hname, -⟩ :=
      ((hops b hb _).mp hdraining).resolve_left (rewritten_ne_draining b _ _)
    obtain ⟨hdue, hcandidate⟩ := (hdrained b₀).mp rfl
    have hip := weightFile_injOn (Sources.backend_ip_lt hb)
      (Sources.backend_ip_lt (hmem b₀ hcandidate)) hname
    obtain rfl := Sources.backend_ext hb (hmem b₀ hcandidate) hip
    obtain ⟨b', hb', hne, hstay⟩ := hstays b hdue hcandidate
    exact ⟨b', hb', hne, (hactive b b' hb hb' hne _ hops).mpr hstay⟩

end Cycle

/-- Two active backends without connections, of which the second has lost its instance. -/
def oneInstanceLost : Sources where
  net := ⟨167772160, 20⟩
  weights := [⟨167772180, .active⟩, ⟨167772181, .active⟩]
  leases := [⟨0, "i-a", 2000⟩, ⟨1, "i-b", 2000⟩]
  asg := (some ⟨"pool", 2, 1, 4⟩, [⟨"i-a", "InService", "Healthy"⟩])
  table := .ok "  -> 0A000014:0015 Masq 0 0 0\n  -> 0A000015:0015 Masq 0 0 0\n"
  distinct_ips := by decide
  ips_lt := by decide
  distinct_slots := by decide
  slots_lt := by decide

/-- The scaler drains the backend that the cleanup has left active. -/
theorem drain_of_last_active : ¬ ∀ src (config : ScaleConfig ℚ) state clock scalerClock decrement
    grace, DrainKeepsActive src config state clock scalerClock decrement grace := by
  intro h
  have hkeeps := h oneInstanceLost defaultConfig
    (⟨fun _ => none⟩, { ScalerState.default with drain_cycles := 2 })
    ⟨fun _ => 1000, fun _ => 10 ^ 9⟩ ⟨fun _ => 1000, 10 ^ 9, 10 ^ 9, 10 ^ 9, 10 ^ 9, 10 ^ 9, 10 ^ 9⟩
    true 60 _ _ (exec_answering okReply _)
    (forall_mem_answering succeeded_okReply _)
    ⟨167772180, some 0, .active, some ⟨167772180, 0, 0⟩, some ⟨0, "i-a", 2000⟩⟩
    (by decide +kernel) (by decide +kernel)
  exact absurd hkeeps (by decide +kernel)

end Aerosuite.Scale
