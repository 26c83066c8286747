import Aerosuite.Scale.Capacity
import Aerosuite.Scale.Roles
import Aerosuite.Scale.ScalerRuns

/-! The passes of the scaler in a refresh loop.  Only they ask for a desired capacity, and they are
a history of the scaler, whatever the cycles in between do. -/

namespace Aerosuite.Scale

open Program

variable {F : Type} [Scalar F]

theorem Within.not_setsCapacity {e : Eff} (h : Within False e) : e.setsCapacity = false := by
  cases e with
  | setDesired n => exact (h.1 rfl).elim
  | _ => rfl

theorem cleanupRun_not_setsCapacity {snapshot : SystemSnapshot} {clock : PassClock}
    {dry_run is_master decrement : Bool} {state : CleanupState} {grace : ℕ} :
    (cleanupRun snapshot clock dry_run is_master decrement state grace).Always
      (·.setsCapacity = false) := by
  by_cases hacts : is_master = true ∧ dry_run = false
  · obtain ⟨rfl, rfl⟩ := hacts
    refine cleanupRun_capacity.mono fun e he => ?_
    cases e with
    | setDesired n => exact absurd rfl (he.1 n)
    | _ => rfl
  · exact cleanupRun_within.mono fun e he => (he.mono hacts).not_setsCapacity

section Cycle

variable {cfg : DaemonConfig F} {is_master : Bool} {clock : CycleClock}
  {state state' : DaemonState F}
  {t : List (Event Eff Eff.Reply)}

/-- What a cycle may reply to the collection of the snapshot: a directory has no name twice, and
Redis no slot twice. -/
structure CollectsSources (t : List (Event Eff Eff.Reply)) : Prop where
  names : ∀ dir, ⟨.readDir, .ok dir⟩ ∈ t → dir.names.Nodup
  leases : ∀ raw, ⟨.redis (.zrangeWithScores .leases), .ok raw⟩ ∈ t → CanonicalLeases raw

theorem CollectsSources.mono {t' : List (Event Eff Eff.Reply)} (h : CollectsSources t)
    (hsub : ∀ ev ∈ t', ev ∈ t) : CollectsSources t' :=
  ⟨fun dir hdir => h.names dir (hsub _ hdir), fun raw hraw => h.leases raw (hsub _ hraw)⟩

theorem cycleAs_backup_returns :
    (cycleAs cfg false clock state).Returns (·.scaler = state.scaler) := by
  refine Returns.bind (returns_true syncFromRedis) fun _ _ => ?_
  refine Returns.bind (returns_true (collect cfg.net state.owner_cache)) fun r _ => ?_
  obtain ⟨e | snapshot, cache⟩ := r
  · rfl
  · exact Returns.bind (returns_true _) fun _ _ => rfl

/-- A cycle of the backup, or one without a snapshot, leaves the scaler alone, and another cycle of
the master ends with a pass. -/
theorem exec_cycleAs (h : Exec (cycleAs cfg is_master clock state) t state')
    (hcollects : CollectsSources t) :
    (∀ ev ∈ t, ev.op.setsCapacity = false) ∧ state'.scaler = state.scaler ∨
      ∃ p : ScalerPass F, p.clock = clock.scaler ∧ p.before = state.scaler ∧
        p.after = state'.scaler ∧
        Exec (scalerRun p.src.snapshot cfg.scale p.before p.clock cfg.dry_run) p.trace p.after ∧
        ∀ ev ∈ t, ev.op.setsCapacity = true → ev ∈ p.trace := by
  cases is_master with
  | false =>
    refine .inl ⟨fun ev hev => ?_, cycleAs_backup_returns.exec h⟩
    exact ((cycleAs_within.exec h ev hev).mono fun hacts =>
      Bool.false_ne_true hacts.1).not_setsCapacity
  | true =>
    obtain ⟨t₁, r, t', rfl, h₁, h'⟩ :=
      exec_bind.mp (show Exec (collect cfg.net state.owner_cache >>= _) t state' from h)
    have hcollect : ∀ ev ∈ t₁, ev.op.setsCapacity = false :=
      fun ev hev => ((collect_within (P := False)).exec h₁ ev hev).not_setsCapacity
    obtain ⟨e | snapshot, cache⟩ := r
    · obtain ⟨rfl, rfl⟩ := exec_ret.mp h'
      rw [List.append_nil]
      exact .inl ⟨hcollect, rfl⟩
    · obtain ⟨t₂, cleanup, t₃, rfl, h₂, h₃⟩ := exec_bind.mp h'
      obtain ⟨t₄, persisted, t₅, rfl, h₄, h₅⟩ := exec_bind.mp h₃
      obtain ⟨scaler, h₆, rfl⟩ := exec_bind_ret.mp h₅
      have hcleanup := cleanupRun_not_setsCapacity.exec h₂
      have hpersist : ∀ ev ∈ t₄, ev.op.setsCapacity = false :=
        fun ev hev => ((persist_within (P := False)).exec h₄ ev hev).not_setsCapacity
      obtain ⟨src, -, rfl, -⟩ := collect_sources h₁
        (fun dir hdir => hcollects.names dir (List.mem_append_left _ hdir))
        fun raw hraw => hcollects.leases raw (List.mem_append_left _ hraw)
      refine .inr ⟨⟨src, clock.scaler, state.scaler, t₅, scaler⟩, rfl, rfl, rfl, h₆,
        fun ev hev hsets => ?_⟩
      simp only [List.mem_append] at hev
      rcases hev with hev | hev | hev | hev
      · exact absurd hsets (by simp [hcollect ev hev])
      · exact absurd hsets (by simp [hcleanup ev hev])
      · exact absurd hsets (by simp [hpersist ev hev])
      · exact hev

end Cycle

/-- The clocks of the scaler do not decrease from cycle to cycle. -/
structure Ticking (clocks : List CycleClock) : Prop where
  scale_up : ∀ c ∈ clocks, c.scaler.scale_up_check ≤ c.scaler.scale_up_done
  drain : ∀ c ∈ clocks, c.scaler.drain_check ≤ c.scaler.drain_done
  later : clocks.Pairwise fun earlier later =>
    earlier.scaler.scale_up_done ≤ later.scaler.scale_up_check ∧
      earlier.scaler.drain_done ≤ later.scaler.drain_check

theorem Ticking.of_cons {c : CycleClock} {clocks : List CycleClock} (h : Ticking (c :: clocks)) :
    Ticking clocks where
  scale_up c hc := h.scale_up c (List.mem_cons_of_mem _ hc)
  drain c hc := h.drain c (List.mem_cons_of_mem _ hc)
  later := h.later.of_cons

section Loop

variable {cfg : DaemonConfig F} {t : List (Event Eff Eff.Reply)}

theorem readRole_not_setsCapacity {vip_inside : Option Ipv4Addr} :
    (readRole vip_inside).Always (·.setsCapacity = false) := by
  cases vip_inside with
  | none => trivial
  | some vip => exact ⟨rfl, fun _ => trivial⟩

/-- A refresh loop adds its passes to the history. -/
theorem exec_refreshLoop {clocks : List CycleClock} (hclocks : Ticking clocks)
    {state : DaemonState F}
    {passes : List (ScalerPass F)}
    (history : ScalerHistory cfg.scale cfg.dry_run passes state.scaler)
    (hbefore : ∀ q ∈ passes, ∀ c ∈ clocks, q.clock.scale_up_done ≤ c.scaler.scale_up_check ∧
      q.clock.drain_done ≤ c.scaler.drain_check)
    (h : Exec (refreshLoop cfg clocks state) t ()) (hcollects : CollectsSources t) :
    ∃ newer final, ScalerHistory cfg.scale cfg.dry_run (newer ++ passes) final ∧
      ∀ ev ∈ t, ev.op.setsCapacity = true → ∃ p ∈ newer, ev ∈ p.trace := by
  induction clocks generalizing state passes t with
  | nil =>
    obtain ⟨rfl, -⟩ := exec_ret.mp h
    exact ⟨[], _, history, fun ev hev => by cases hev⟩
  | cons c clocks ih =>
    obtain ⟨t₁, is_master, t', rfl, h₁, h'⟩ := exec_bind.mp h
    obtain ⟨t₂, state', t₃, rfl, h₂, h₃⟩ := exec_bind.mp h'
    have hrole := readRole_not_setsCapacity.exec h₁
    have hloop := hcollects.mono fun ev (hev : ev ∈ t₃) => by simp [hev]
    rcases exec_cycleAs h₂ (hcollects.mono fun ev hev => by simp [hev]) with
      ⟨hnone, hkept⟩ | ⟨p, hclock, hp, hafter, hexec, htrace⟩
    · obtain ⟨newer, final, hhistory, hnewer⟩ := ih hclocks.of_cons (hkept ▸ history)
        (fun q hq c hc => hbefore q hq c (List.mem_cons_of_mem _ hc)) h₃ hloop
      refine ⟨newer, final, hhistory, fun ev hev hsets => ?_⟩
      rcases List.mem_append.mp hev with hev | hev
      · exact absurd hsets (by simp [hrole ev hev])
      · rcases List.mem_append.mp hev with hev | hev
        · exact absurd hsets (by simp [hnone ev hev])
        · exact hnewer ev hev hsets
    · have hpass : ScalerHistory cfg.scale cfg.dry_run (p :: passes) p.after := by
        refine .pass (hp ▸ history) hexec ?_ ?_ fun q hq => ?_
        · rw [hclock]
          exact hclocks.scale_up c List.mem_cons_self
        · rw [hclock]
          exact hclocks.drain c List.mem_cons_self
        · rw [hclock]
          exact hbefore q hq c List.mem_cons_self
      obtain ⟨newer, final, hhistory, hnewer⟩ :=
        ih hclocks.of_cons (hafter ▸ hpass) (fun q hq c' hc => by
        rcases List.mem_cons.mp hq with rfl | hq
        · rw [hclock]
          exact (List.pairwise_cons.mp hclocks.later).1 c' hc
        · exact hbefore q hq c' (List.mem_cons_of_mem _ hc)) h₃ hloop
      refine ⟨newer ++ [p], final, by simpa using hhistory, fun ev hev hsets => ?_⟩
      rcases List.mem_append.mp hev with hev | hev
      · exact absurd hsets (by simp [hrole ev hev])
      · rcases List.mem_append.mp hev with hev | hev
        · exact ⟨p, by simp, htrace ev hev hsets⟩
        · obtain ⟨q, hq, hmem⟩ := hnewer ev hev hsets
          exact ⟨q, List.mem_append_left _ hq, hmem⟩

/-- The passes of a main task are a history of the scaler, and all its requests for a desired
capacity are theirs. -/
theorem exec_mainTask_history {start : StartClock} {clocks : List CycleClock}
    (hclocks : Ticking clocks) (h : Exec (mainTask cfg start clocks) t ())
    (hcollects : CollectsSources t) :
    ∃ passes final, ScalerHistory cfg.scale cfg.dry_run passes final ∧
      ∀ ev ∈ t, ev.op.setsCapacity = true → ∃ p ∈ passes, ev ∈ p.trace := by
  obtain ⟨t₁, initialised, t₂, rfl, h₁, h₂⟩ := exec_bind.mp h
  have hinit : ∀ ev ∈ t₁, ev.op.setsCapacity = false :=
    fun ev hev => ((initWeights_within (P := False)).exec h₁ ev hev).not_setsCapacity
  obtain ⟨passes, final, hhistory, hpasses⟩ := exec_refreshLoop hclocks (.start _)
    (fun q hq => by cases hq) h₂ (hcollects.mono fun ev hev => List.mem_append_right _ hev)
  rw [List.append_nil] at hhistory
  refine ⟨passes, final, hhistory, fun ev hev hsets => ?_⟩
  rcases List.mem_append.mp hev with hev | hev
  · exact absurd hsets (by simp [hinit ev hev])
  · exact hpasses ev hev hsets

end Loop

end Aerosuite.Scale
