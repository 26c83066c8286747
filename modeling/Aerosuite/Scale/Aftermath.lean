import Aerosuite.Scale.Weights

/-! What operations that succeed leave behind for the next snapshot.  A weight file has the last
weight that was written, a lease is gone with its entry in Redis, and an instance leaves service
when it is terminated. -/

namespace Aerosuite.Scale

open Pool Program

/-- A weight file after an operation. -/
def WeightEntry.after (w : WeightEntry) : Eff → WeightEntry
  | .writeFile name value =>
    if weightFile w.ip = name then { w with state := .fromWeightStr value } else w
  | _ => w

/-- A lease after an operation.  Without its owner key it has no owner. -/
def SlotLease.after (l : SlotLease) : Eff → Option SlotLease
  | .redis (.del (.owner slot_str)) =>
    some (if slotStr l.slot = slot_str then { l with owner_instance_id := OWNER_MISSING } else l)
  | .redis (.zrem .leases slot_str) => if slotStr l.slot = slot_str then none else some l
  | _ => some l

/-- An instance after an operation: one that is terminated leaves the service. -/
def AsgInstance.after (i : AsgInstance) : Eff → AsgInstance
  | .terminateInstance id _ =>
    if i.instance_id = id ∧ i.isInService then { i with lifecycle_state := "Terminating" } else i
  | _ => i

/-- The group after an operation on its instances: with decrement, the termination of one that is in
service lowers the desired capacity. -/
def AsgGroupInfo.after (g : AsgGroupInfo) (instances : List AsgInstance) : Eff → AsgGroupInfo
  | .terminateInstance id true =>
    if ∃ i ∈ instances, i.instance_id = id ∧ i.isInService then
      { g with desired_capacity := g.desired_capacity - 1 }
    else g
  | _ => g

section Entries

variable {w : WeightEntry} {l l' : SlotLease} {i : AsgInstance} {e : Eff}

@[simp] theorem WeightEntry.ip_after : (w.after e).ip = w.ip := by
  unfold WeightEntry.after
  split
  · split <;> rfl
  · rfl

theorem SlotLease.slot_after (h : l.after e = some l') : l'.slot = l.slot := by
  unfold SlotLease.after at h
  split at h
  · obtain rfl := Option.some.inj h
    split <;> rfl
  · split at h
    · cases h
    · obtain rfl := Option.some.inj h
      rfl
  · obtain rfl := Option.some.inj h
    rfl

@[simp] theorem AsgInstance.id_after : (i.after e).instance_id = i.instance_id := by
  unfold AsgInstance.after
  split
  · split <;> rfl
  · rfl

theorem AsgInstance.isInService_after : (i.after e).isInService = true ↔
    i.isInService = true ∧ ∀ decrement, e ≠ .terminateInstance i.instance_id decrement := by
  unfold AsgInstance.after
  split
  · next id d =>
    by_cases hid : i.instance_id = id
    · subst hid
      cases hin : i.isInService with
      | false => simp [hin]
      | true =>
        simp only [and_self, if_true]
        exact iff_of_false (by simp [AsgInstance.isInService]) fun ⟨_, hne⟩ => hne d rfl
    · have hne : ∀ decrement,
        Eff.terminateInstance id d ≠ .terminateInstance i.instance_id decrement :=
        fun decrement heq => hid (Eff.terminateInstance.inj heq).1.symm
      simp [hid, hne]
  · next hother => simp only [iff_self_and]; exact fun _ d heq => hother _ d heq

theorem AsgGroupInfo.wouldViolateMin_after {g : AsgGroupInfo} {instances : List AsgInstance}
    (h : g.wouldViolateMin = true) : (g.after instances e).wouldViolateMin = true := by
  simp only [AsgGroupInfo.wouldViolateMin, decide_eq_true_eq] at h ⊢
  unfold AsgGroupInfo.after
  split
  · split
    · show g.desired_capacity - 1 ≤ g.min_size
      omega
    · exact h
  · exact h

end Entries

namespace Sources

/-- The sources after an operation that succeeded. -/
def after (src : Sources) (e : Eff) : Sources where
  net := src.net
  weights := src.weights.map (·.after e)
  leases := src.leases.filterMap (·.after e)
  asg := (src.asg.1.map (·.after src.asg.2 e), src.asg.2.map (·.after e))
  table := src.table
  distinct_ips := by
    have hips : (src.weights.map (·.after e)).map WeightEntry.ip =
      src.weights.map WeightEntry.ip := by
      simp
    rw [hips]
    exact src.distinct_ips
  ips_lt := by
    intro w hw
    obtain ⟨w', hw', rfl⟩ := List.mem_map.mp hw
    rw [WeightEntry.ip_after]
    exact src.ips_lt w' hw'
  distinct_slots := by
    rw [List.Nodup, List.pairwise_map]
    refine (List.pairwise_map.mp src.distinct_slots).filterMap _ fun a a' hne b hb b' hb' => ?_
    rw [SlotLease.slot_after hb, SlotLease.slot_after hb']
    exact hne
  slots_lt := by
    intro l hl
    obtain ⟨l', hl', heq⟩ := List.mem_filterMap.mp hl
    rw [SlotLease.slot_after heq]
    exact src.slots_lt l' hl'

/-- The sources after operations that succeeded. -/
def afterAll (src : Sources) (ops : List Eff) : Sources := ops.foldl after src

variable {src : Sources} {e : Eff} {ops : List Eff} {l : SlotLease} {id : String}

@[simp] theorem afterAll_nil : src.afterAll [] = src := rfl

@[simp] theorem afterAll_cons : src.afterAll (e :: ops) = (src.after e).afterAll ops := rfl

@[simp] theorem net_afterAll : (src.afterAll ops).net = src.net := by
  induction ops generalizing src with
  | nil => rfl
  | cons e ops ih => exact ih

@[simp] theorem table_afterAll : (src.afterAll ops).table = src.table := by
  induction ops generalizing src with
  | nil => rfl
  | cons e ops ih => exact ih

section Leases

theorem after_eq_self (hdel : e ≠ .redis (.del (.owner (slotStr l.slot))))
    (hzrem : e ≠ .redis (.zrem .leases (slotStr l.slot))) : l.after e = some l := by
  unfold SlotLease.after
  split
  · next slot_str =>
    rw [if_neg]
    rintro rfl
    exact hdel rfl
  · next slot_str =>
    rw [if_neg]
    rintro rfl
    exact hzrem rfl
  · rfl

theorem exists_lease_of_afterAll {l' : SlotLease} (h : l' ∈ (src.afterAll ops).leases) :
    ∃ l ∈ src.leases, .redis (.zrem .leases (slotStr l.slot)) ∉ ops ∧
      (.redis (.del (.owner (slotStr l.slot))) ∉ ops → l' = l) := by
  induction ops generalizing src with
  | nil => exact ⟨l', h, by simp, fun _ => rfl⟩
  | cons e ops ih =>
    obtain ⟨l₁, hl₁, hzrem, hsame⟩ := ih h
    obtain ⟨l, hl, hafter⟩ := List.mem_filterMap.mp hl₁
    have hslot := SlotLease.slot_after hafter
    have hne : e ≠ .redis (.zrem .leases (slotStr l.slot)) := by
      rintro rfl
      simp [SlotLease.after] at hafter
    rw [hslot] at hzrem hsame
    refine ⟨l, hl, by simp [hzrem, hne.symm], fun hdel => ?_⟩
    obtain ⟨hdel, hdel'⟩ := not_or.mp (mt List.mem_cons.mpr hdel)
    rw [hsame hdel']
    exact (Option.some.inj ((after_eq_self (Ne.symm hdel) hne).symm.trans hafter)).symm

theorem mem_leases_afterAll_of (hl : l ∈ src.leases)
    (hdel : .redis (.del (.owner (slotStr l.slot))) ∉ ops)
    (hzrem : .redis (.zrem .leases (slotStr l.slot)) ∉ ops) : l ∈ (src.afterAll ops).leases := by
  induction ops generalizing src with
  | nil => exact hl
  | cons e ops ih =>
    obtain ⟨hdel, hdel'⟩ := not_or.mp (mt List.mem_cons.mpr hdel)
    obtain ⟨hzrem, hzrem'⟩ := not_or.mp (mt List.mem_cons.mpr hzrem)
    exact ih (List.mem_filterMap.mpr ⟨l, hl, after_eq_self (Ne.symm hdel) (Ne.symm hzrem)⟩) hdel'
      hzrem'

/-- When an owner is deleted with its lease only, the leases that are left are as they were. -/
theorem mem_leases_afterAll (hops : ∀ l ∈ src.leases,
    .redis (.del (.owner (slotStr l.slot))) ∈ ops → .redis (.zrem .leases (slotStr l.slot)) ∈ ops) :
    l ∈ (src.afterAll ops).leases ↔
      l ∈ src.leases ∧ .redis (.zrem .leases (slotStr l.slot)) ∉ ops := by
  constructor
  · intro h
    obtain ⟨l', hl', hzrem, hsame⟩ := exists_lease_of_afterAll h
    obtain rfl := hsame fun hdel => hzrem (hops l' hl' hdel)
    exact ⟨hl', hzrem⟩
  · rintro ⟨hl, hzrem⟩
    exact mem_leases_afterAll_of hl (fun hdel => hzrem (hops l hl hdel)) hzrem

end Leases

section Weights

theorem weights_afterAll : (src.afterAll ops).weights =
    src.weights.map fun w => ops.foldl WeightEntry.after w := by
  induction ops generalizing src with
  | nil => simp
  | cons e ops ih =>
    rw [afterAll_cons, ih]
    simp [after]

theorem weightAfter_cons (b : BackendStatus) : b.weightAfter (e :: ops) = BackendStatus.weightAfter
    { b with weight_state := (WeightEntry.after ⟨b.ip, b.weight_state⟩ e).state } ops := by
  cases e with
  | writeFile name value =>
    by_cases hname : weightFile b.ip = name
    · subst hname
      simp only [BackendStatus.weightAfter, writtenTo, List.filterMap_cons, if_true,
        List.getLast?_cons, WeightEntry.after]
      cases (List.filterMap _ ops).getLast? <;> rfl
    · simp [BackendStatus.weightAfter, writtenTo, WeightEntry.after, hname, Ne.symm hname]
  | _ => rfl

/-- A weight file after operations shows the state of its backend after them. -/
theorem weight_afterAll (b : BackendStatus) :
    ops.foldl WeightEntry.after ⟨b.ip, b.weight_state⟩ = ⟨b.ip, b.weightAfter ops⟩ := by
  induction ops generalizing b with
  | nil => rfl
  | cons e ops ih =>
    have hentry : WeightEntry.after ⟨b.ip, b.weight_state⟩ e =
        ⟨b.ip, (WeightEntry.after ⟨b.ip, b.weight_state⟩ e).state⟩ := by
      rw [WeightEntry.mk.injEq]
      exact ⟨WeightEntry.ip_after, rfl⟩
    rw [List.foldl_cons, weightAfter_cons, hentry]
    exact ih { b with weight_state := (WeightEntry.after ⟨b.ip, b.weight_state⟩ e).state }

end Weights

section Group

theorem mem_asgIds_after : id ∈ (src.after e).snapshot.asgIds ↔
    id ∈ src.snapshot.asgIds ∧ ∀ decrement, e ≠ .terminateInstance id decrement := by
  simp only [SystemSnapshot.asgIds, List.mem_map, List.mem_filter]
  constructor
  · rintro ⟨i', ⟨hi', hin⟩, rfl⟩
    obtain ⟨i, hi, rfl⟩ := List.mem_map.mp hi'
    obtain ⟨hin, hne⟩ := AsgInstance.isInService_after.mp hin
    rw [AsgInstance.id_after]
    exact ⟨⟨i, ⟨hi, hin⟩, rfl⟩, hne⟩
  · rintro ⟨⟨i, ⟨hi, hin⟩, rfl⟩, hne⟩
    exact ⟨i.after e, ⟨List.mem_map_of_mem hi, AsgInstance.isInService_after.mpr ⟨hin, hne⟩⟩,
      AsgInstance.id_after⟩

theorem mem_asgIds_afterAll : id ∈ (src.afterAll ops).snapshot.asgIds ↔
    id ∈ src.snapshot.asgIds ∧ ∀ decrement, .terminateInstance id decrement ∉ ops := by
  induction ops generalizing src with
  | nil => simp
  | cons e ops ih =>
    rw [afterAll_cons, ih, mem_asgIds_after, and_assoc, ← forall_and]
    simp only [List.mem_cons, not_or, ne_comm]

theorem isSome_group_afterAll :
    (src.afterAll ops).snapshot.asg_group.isSome = src.snapshot.asg_group.isSome := by
  induction ops generalizing src with
  | nil => rfl
  | cons e ops ih =>
    rw [afterAll_cons, ih]
    exact Option.isSome_map

theorem atMin_eq_true {snapshot : SystemSnapshot} :
    snapshot.atMin = true ↔ ∃ g, snapshot.asg_group = some g ∧ g.wouldViolateMin = true := by
  unfold SystemSnapshot.atMin
  cases snapshot.asg_group <;> simp

theorem atMin_afterAll (h : src.snapshot.atMin = true) :
    (src.afterAll ops).snapshot.atMin = true := by
  induction ops generalizing src with
  | nil => exact h
  | cons e ops ih =>
    refine ih ?_
    obtain ⟨g, hg, hmin⟩ := atMin_eq_true.mp h
    exact atMin_eq_true.mpr ⟨g.after src.asg.2 e, Option.map_eq_some_iff.mpr ⟨g, hg, rfl⟩,
      AsgGroupInfo.wouldViolateMin_after hmin⟩

end Group

/-- The backends keep their addresses and rows, and have the weights that were written last. -/
theorem exists_backend_of_afterAll {b' : BackendStatus}
    (hb' : b' ∈ (src.afterAll ops).snapshot.backends) : ∃ b ∈ src.snapshot.backends,
      b'.ip = b.ip ∧ b'.ipvs = b.ipvs ∧ b'.weight_state = b.weightAfter ops := by
  obtain ⟨w', hw', rfl⟩ := exists_weight hb'
  rw [weights_afterAll] at hw'
  obtain ⟨w, hw, rfl⟩ := List.mem_map.mp hw'
  obtain ⟨b, hb, hip, hstate, hipvs⟩ : ∃ b ∈ src.snapshot.backends, b.ip = w.ip ∧
      b.weight_state = w.state ∧ b.ipvs = (ipvsOf src.table).find? fun i => i.ip = w.ip :=
    ⟨_, List.mem_map_of_mem hw, rfl, rfl, rfl⟩
  have hentry : ops.foldl WeightEntry.after w = ⟨b.ip, b.weightAfter ops⟩ := by
    rw [← weight_afterAll, hip, hstate]
  refine ⟨b, hb, ?_⟩
  simp only [hentry, table_afterAll, hipvs, hip, and_self]

end Sources

end Aerosuite.Scale
