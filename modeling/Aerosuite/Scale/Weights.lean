import Aerosuite.Scale.Orphans

/-! The weight files after a pass of the cleanup whose writes succeed.  A pass writes the file of a
backend at most once: section 2.1 for the lease that the backend shows, or section 2.3. -/

namespace Aerosuite.Scale

open Program

@[simp] theorem fromWeightStr_active : BackendState.fromWeightStr WEIGHT_ACTIVE = .active := by
  decide

@[simp] theorem fromWeightStr_draining :
    BackendState.fromWeightStr WEIGHT_DRAINING = .draining := by
  decide

@[simp] theorem fromWeightStr_disabled :
    BackendState.fromWeightStr WEIGHT_DISABLED = .disabled := by
  decide

/-- The values that operations write to a file, in order. -/
def writtenTo (name : String) (ops : List Eff) : List String :=
  ops.filterMap fun
    | .writeFile name' value => if name' = name then some value else none
    | _ => none

/-- The state of a backend after operations that succeeded. -/
def BackendStatus.weightAfter (b : BackendStatus) (ops : List Eff) : BackendState :=
  match (writtenTo (weightFile b.ip) ops).getLast? with
  | none => b.weight_state
  | some value => .fromWeightStr value

theorem mem_writtenTo {name value : String} {ops : List Eff} :
    value ∈ writtenTo name ops ↔ Eff.writeFile name value ∈ ops := by
  rw [writtenTo, List.mem_filterMap]
  constructor
  · rintro ⟨e, he, hvalue⟩
    cases e with
    | writeFile name' value' =>
      by_cases hname : name' = name
      · simp only [hname, if_true, Option.some.injEq] at hvalue
        rw [← hname, ← hvalue]
        exact he
      · simp [hname] at hvalue
    | _ => cases hvalue
  · intro h
    exact ⟨_, h, by simp⟩

theorem weightAfter_of_not_written {b : BackendStatus} {ops : List Eff}
    (h : ∀ value, Eff.writeFile (weightFile b.ip) value ∉ ops) :
    b.weightAfter ops = b.weight_state := by
  have hnil : writtenTo (weightFile b.ip) ops = [] :=
    List.eq_nil_iff_forall_not_mem.mpr fun value hvalue => h value (mem_writtenTo.mp hvalue)
  rw [BackendStatus.weightAfter, hnil, List.getLast?_nil]

theorem weightAfter_of_written {b : BackendStatus} {ops : List Eff} {value : String}
    (hmem : Eff.writeFile (weightFile b.ip) value ∈ ops)
    (hall : ∀ value', Eff.writeFile (weightFile b.ip) value' ∈ ops → value' = value) :
    b.weightAfter ops = .fromWeightStr value := by
  rw [BackendStatus.weightAfter]
  cases hlast : (writtenTo (weightFile b.ip) ops).getLast? with
  | none =>
    rw [List.getLast?_eq_none_iff] at hlast
    have hvalue := mem_writtenTo.mpr hmem
    simp [hlast] at hvalue
  | some value' => rw [hall value' (mem_writtenTo.mp (List.mem_of_getLast? hlast))]

/-- The weight that a pass writes to the file of a backend, if it writes one. -/
def BackendStatus.rewritten (b : BackendStatus) (snapshot : SystemSnapshot) (clock : PassClock) :
    Option String :=
  match b.lease with
  | none => if b.Leaseless then some WEIGHT_DISABLED else none
  | some l =>
    if snapshot.guardsPass then
      match leaseAction snapshot clock l with
      | .skip => none
      | .release _ | .retire _ => some WEIGHT_DISABLED
      | .enable _ => some WEIGHT_ACTIVE
    else none

section Cleanup

variable {src : Sources} {clock : PassClock} {decrement : Bool} {b : BackendStatus} {ops : List Eff}

theorem writeFile_mem_requests23 (hb : b ∈ src.snapshot.backends) {value : String} :
    Eff.writeFile (weightFile b.ip) value ∈ src.snapshot.requests23 ↔
      b.Leaseless ∧ value = WEIGHT_DISABLED := by
  rw [SystemSnapshot.requests23, List.mem_flatMap]
  constructor
  · rintro ⟨b', hb', hmem⟩
    split at hmem
    · next hless =>
      obtain ⟨hname, hvalue⟩ := Eff.writeFile.inj (List.mem_singleton.mp hmem)
      have hip := weightFile_injOn (Sources.backend_ip_lt hb) (Sources.backend_ip_lt hb') hname
      obtain rfl := Sources.backend_ext hb hb' hip
      exact ⟨hless, hvalue⟩
    · cases hmem
  · rintro ⟨hless, rfl⟩
    exact ⟨b, hb, by simp [hless]⟩

/-- The decision for the lease that a backend shows releases it with the backend. -/
theorem release_of_dead {l : SlotLease} (hb : b ∈ src.snapshot.backends) (hlease : b.lease = some l)
    (hknown : l.OwnerKnown) (hdead : l.owner_instance_id ∉ src.snapshot.asgIds) :
    leaseAction src.snapshot clock l = .release (some b.ip) := by
  have hl := ((Sources.lease_eq_some_iff hb).mp hlease).1
  have hof := (Sources.backendOf_eq_some_iff hl).mpr ⟨hb, hlease⟩
  exact leaseAction_eq_release.mpr ⟨hknown, hdead, by rw [hof]; rfl⟩

/-- The decision for the lease that a backend shows writes no other file. -/
theorem action_of_lease {l : SlotLease} (hb : b ∈ src.snapshot.backends) (hlease : b.lease = some l)
    (clock : PassClock) :
    leaseAction src.snapshot clock l = .skip ∨
      leaseAction src.snapshot clock l = .release (some b.ip) ∨
      leaseAction src.snapshot clock l = .retire b.ip ∨
      leaseAction src.snapshot clock l = .enable b.ip := by
  have hl := ((Sources.lease_eq_some_iff hb).mp hlease).1
  have hof := (Sources.backendOf_eq_some_iff hl).mpr ⟨hb, hlease⟩
  cases haction : leaseAction src.snapshot clock l with
  | skip => exact .inl rfl
  | release backend =>
    obtain ⟨-, -, rfl⟩ := leaseAction_eq_release.mp haction
    rw [hof]
    exact .inr (.inl rfl)
  | retire ip =>
    obtain ⟨-, b', hb', -, -, -, rfl⟩ := leaseAction_eq_retire.mp haction
    obtain rfl := Option.some.inj (hof.symm.trans hb')
    exact .inr (.inr (.inl rfl))
  | enable ip =>
    obtain ⟨-, b', hb', -, -, rfl⟩ := leaseAction_eq_enable.mp haction
    obtain rfl := Option.some.inj (hof.symm.trans hb')
    exact .inr (.inr (.inr rfl))

theorem writeFile_mem_cleanup (hb : b ∈ src.snapshot.backends) {value : String} :
    (Eff.writeFile (weightFile b.ip) value ∈ src.snapshot.requests21 clock decrement ∨
      Eff.writeFile (weightFile b.ip) value ∈ src.snapshot.requests23) ↔
      b.rewritten src.snapshot clock = some value := by
  rw [writeFile_mem_requests21 hb, writeFile_mem_requests23 hb, BackendStatus.rewritten]
  cases hlease : b.lease with
  | none =>
    by_cases hless : b.Leaseless
    · simp only [hless, if_true, reduceCtorEq, false_and, exists_false, and_false, false_or,
        true_and, Option.some.injEq]
      exact eq_comm
    · simp [hless]
  | some l =>
    have hless : ¬ b.Leaseless := fun h => Option.some_ne_none l (hlease.symm.trans h.1)
    cases hguards : src.snapshot.guardsPass with
    | false => simp [hless]
    | true =>
      rcases action_of_lease hb hlease clock with h | h | h | h
      · simp [hless, h]
      · simp only [h, hless, if_true, true_and, Option.some.injEq, exists_eq_left', reduceCtorEq,
          false_and, or_false]
        exact eq_comm
      · simp only [h, hless, if_true, true_and, Option.some.injEq, exists_eq_left', or_true,
          reduceCtorEq, false_and, or_false]
        exact eq_comm
      · simp only [h, hless, if_true, true_and, Option.some.injEq, exists_eq_left', reduceCtorEq,
          or_false, false_and, false_or]
        exact eq_comm

/-- The state of a backend after writes that are those of a pass as far as its file is concerned. -/
theorem weightAfter_eq (hops : ∀ value, Eff.writeFile (weightFile b.ip) value ∈ ops ↔
    b.rewritten src.snapshot clock = some value) :
    b.weightAfter ops =
      ((b.rewritten src.snapshot clock).map BackendState.fromWeightStr).getD b.weight_state := by
  cases hnew : b.rewritten src.snapshot clock with
  | none =>
    apply weightAfter_of_not_written
    intro value hvalue
    have hsome := (hops value).mp hvalue
    rw [hnew] at hsome
    cases hsome
  | some value =>
    rw [Option.map_some, Option.getD_some]
    apply weightAfter_of_written ((hops value).mpr hnew)
    intro value' hvalue'
    exact Option.some.inj (((hops value').mp hvalue').symm.trans hnew)

/-- A pass whose writes succeed makes all requests of sections 2.1 and 2.3, and in between it only
terminates instances. -/
theorem exec_cleanupRun_ops {snapshot : SystemSnapshot} {state state' : CleanupState} {grace : ℕ}
    {t : List (Event Eff Eff.Reply)}
    (h : Exec (cleanupRun snapshot clock false true decrement state grace) t state')
    (hok : ∀ ev ∈ t, Succeeded ev) :
    ∃ t₂, t.map Event.op =
        snapshot.requests21 clock decrement ++ (t₂.map Event.op ++ snapshot.requests23) ∧
      Exec (section22 snapshot state clock false grace) t₂ state' := by
  obtain ⟨t₁, t₂, t₃, rfl, h₁, h₂, h₃⟩ := exec_cleanupRun h
  refine ⟨t₂, ?_, h₂⟩
  have h₂₁ := section21_requests h₁ fun ev hev => hok ev (by simp [hev])
  have h₂₃ := section23_requests h₃ fun ev hev => hok ev (by simp [hev])
  rw [List.map_append, List.map_append, h₂₁, h₂₃]

/-- A pass whose writes succeed writes the file of each backend at most once. -/
theorem writeFile_mem_cleanupRun {state state' : CleanupState} {grace : ℕ}
    {t : List (Event Eff Eff.Reply)}
    (h : Exec (cleanupRun src.snapshot clock false true decrement state grace) t state')
    (hok : ∀ ev ∈ t, Succeeded ev) (hb : b ∈ src.snapshot.backends) (value : String) :
    Eff.writeFile (weightFile b.ip) value ∈ t.map Event.op ↔
      b.rewritten src.snapshot clock = some value := by
  obtain ⟨t₂, hops, h₂₂⟩ := exec_cleanupRun_ops h hok
  have hnone : Eff.writeFile (weightFile b.ip) value ∉ t₂.map Event.op := by
    intro hmem
    obtain ⟨-, id, -, -, heq⟩ := section22_always.exec_op h₂₂ hmem
    cases heq
  simp only [hops, List.mem_append, hnone, false_or]
  exact writeFile_mem_cleanup hb

/-- A backend that is active after the cleanup: it is active and its lease is not released, or it is
enabled. -/
def BackendStatus.StaysActive (b : BackendStatus) (snapshot : SystemSnapshot) (clock : PassClock) :
    Prop :=
  ∃ l, b.lease = some l ∧
    (b.weight_state = .active ∧ ¬ (snapshot.guardsPass = true ∧ l.OwnerKnown ∧
        l.owner_instance_id ∉ snapshot.asgIds) ∨
      b.weight_state = .disabled ∧ snapshot.guardsPass = true ∧ snapshot.OwnerLive l ∧
        l.isExpired (clock.lease l.slot) = false)

/-- The backends that are active after the writes of the cleanup. -/
theorem weightAfter_active_iff (hb : b ∈ src.snapshot.backends)
    (hops : ∀ value, Eff.writeFile (weightFile b.ip) value ∈ ops ↔
      b.rewritten src.snapshot clock = some value) :
    b.weightAfter ops = .active ↔ b.StaysActive src.snapshot clock := by
  rw [weightAfter_eq hops, BackendStatus.rewritten]
  cases hlease : b.lease with
  | none =>
    have hstays : ¬ b.StaysActive src.snapshot clock := by
      rintro ⟨l, hl, -⟩
      rw [hlease] at hl
      cases hl
    refine iff_of_false (fun hactive => ?_) hstays
    by_cases hless : b.Leaseless
    · simp only [hless, if_true, Option.map_some, Option.getD_some] at hactive
      exact absurd hactive (by decide)
    · simp only [hless, if_false, Option.map_none, Option.getD_none] at hactive
      exact hless ⟨hlease, .inl hactive⟩
  | some l =>
    have hl := ((Sources.lease_eq_some_iff hb).mp hlease).1
    have hof := (Sources.backendOf_eq_some_iff hl).mpr ⟨hb, hlease⟩
    simp only [BackendStatus.StaysActive, hlease, Option.some.injEq, exists_eq_left']
    cases hguards : src.snapshot.guardsPass with
    | false => simp
    | true =>
      have henable : leaseAction src.snapshot clock l = .enable b.ip ↔
          src.snapshot.OwnerLive l ∧ b.weight_state = .disabled ∧
            l.isExpired (clock.lease l.slot) = false := by
        simp [leaseAction_eq_enable, hof]
      have hrelease : leaseAction src.snapshot clock l = .release (some b.ip) ↔
          l.OwnerKnown ∧ l.owner_instance_id ∉ src.snapshot.asgIds := by
        simp [leaseAction_eq_release, hof]
      simp only [if_true, true_and, ← hrelease]
      rcases action_of_lease hb hlease clock with h | h | h | h
      · rw [h] at henable ⊢
        have hoff : ¬ (b.weight_state = .disabled ∧ src.snapshot.OwnerLive l ∧
            l.isExpired (clock.lease l.slot) = false) := fun ⟨h₁, h₂, h₃⟩ => by
          cases henable.mpr ⟨h₂, h₁, h₃⟩
        simp [hoff]
      · have hdead := hrelease.mp h
        have hlive : ¬ src.snapshot.OwnerLive l := fun hlive => hdead.2 hlive.2
        rw [h]
        exact iff_of_false (by simp) (by simp [hlive])
      · obtain ⟨-, b', hb', hdraining, -⟩ := leaseAction_eq_retire.mp h
        obtain rfl := Option.some.inj (hof.symm.trans hb')
        rw [h]
        exact iff_of_false (by simp) (by simp [hdraining])
      · obtain ⟨h₁, h₂, h₃⟩ := henable.mp h
        rw [h]
        exact iff_of_true (by simp) (.inr ⟨h₂, h₁, h₃⟩)

end Cleanup

end Aerosuite.Scale
