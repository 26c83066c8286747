import Aerosuite.Scale.Cleanup
import Mathlib.Data.Finset.Card
import Mathlib.Data.Finset.Image
import Mathlib.Algebra.Order.Ring.Int

/-! The minimum of the group over a whole pass of section 2.1.  The guard looks at the snapshot for
each lease, so it lets a pass terminate every drained owner as soon as the group is above its
minimum. -/

namespace Aerosuite.Scale

open Program

/-- The instances that a run asked to terminate with decrement. -/
def decremented (t : List (Event Eff Eff.Reply)) : Finset String :=
  (t.filterMap fun ev =>
    match ev.op with
    | .terminateInstance id true => some id
    | _ => none).toFinset

/-- The lease belongs to an instance in service whose backend drains and has no connection. -/
def SystemSnapshot.Drained (snapshot : SystemSnapshot) (l : SlotLease) : Prop :=
  l.OwnerKnown ∧ l.owner_instance_id ∈ snapshot.asgIds ∧
    ∃ b ∈ snapshot.backendOf l.slot, b.weight_state = .draining ∧ b.activeConn = 0

instance (snapshot : SystemSnapshot) (l : SlotLease) : Decidable (snapshot.Drained l) :=
  inferInstanceAs (Decidable (_ ∧ _ ∧ ∃ b ∈ _, _))

/-- The owners of the drained backends. -/
def SystemSnapshot.drainedOwners (snapshot : SystemSnapshot) : Finset String :=
  ((snapshot.leases.filter snapshot.Drained).map SlotLease.owner_instance_id).toFinset

theorem mem_decremented {t : List (Event Eff Eff.Reply)} {id : String} :
    id ∈ decremented t ↔ Eff.terminateInstance id true ∈ t.map Event.op := by
  simp only [decremented, List.mem_toFinset, List.mem_filterMap, List.mem_map]
  constructor
  · rintro ⟨ev, hev, heq⟩
    refine ⟨ev, hev, ?_⟩
    split at heq
    · next op => cases heq; exact op
    · cases heq
  · rintro ⟨ev, hev, hop⟩
    exact ⟨ev, hev, by rw [hop]⟩

theorem mem_drainedOwners {snapshot : SystemSnapshot} {id : String} :
    id ∈ snapshot.drainedOwners ↔
      ∃ l ∈ snapshot.leases, snapshot.Drained l ∧ l.owner_instance_id = id := by
  simp [SystemSnapshot.drainedOwners, and_assoc]

section Pass

variable {snapshot : SystemSnapshot} {clock : PassClock} {t : List (Event Eff Eff.Reply)}

theorem exists_retire_iff {l : SlotLease} : (∃ ip, leaseAction snapshot clock l = .retire ip) ↔
    snapshot.Drained l ∧ snapshot.atMin = false := by
  simp only [leaseAction_eq_retire, SystemSnapshot.OwnerLive, SystemSnapshot.Drained]
  constructor
  · rintro ⟨ip, ⟨hknown, hin⟩, b, hb, hw, hconn, hmin, -⟩
    exact ⟨⟨hknown, hin, b, hb, hw, hconn⟩, hmin⟩
  · rintro ⟨⟨hknown, hin, b, hb, hw, hconn⟩, hmin⟩
    exact ⟨b.ip, ⟨hknown, hin⟩, b, hb, hw, hconn, hmin, rfl⟩

/-- Section 2.1 asks to terminate only owners of drained backends, and only above the minimum. -/
theorem decremented_subset (h : Exec (section21 snapshot clock false true) t ()) :
    decremented t ⊆ if snapshot.atMin = false then snapshot.drainedOwners else ∅ := by
  intro id hid
  have hreq := section21_always.exec_op h (mem_decremented.mp hid)
  rw [SystemSnapshot.requests21] at hreq
  split at hreq
  · obtain ⟨l, hl, hmem⟩ := List.mem_flatMap.mp hreq
    obtain ⟨hretire, rfl, -⟩ := terminate_mem_requests.mp hmem
    obtain ⟨hdrained, hmin⟩ := exists_retire_iff.mp hretire
    rw [if_pos hmin]
    exact mem_drainedOwners.mpr ⟨l, hl, hdrained, rfl⟩
  · simp at hreq

theorem guardsPass_of_drained {l : SlotLease} (hgroup : snapshot.asg_group.isSome)
    (hdrained : snapshot.Drained l) : snapshot.guardsPass = true := by
  have hne : snapshot.asgIds.isEmpty = false := by
    rw [List.isEmpty_eq_false_iff]
    exact List.ne_nil_of_mem hdrained.2.1
  simp [SystemSnapshot.guardsPass, hgroup, hne]

/-- When its writes succeed, section 2.1 asks to terminate the owners of all drained backends. -/
theorem decremented_eq (h : Exec (section21 snapshot clock false true) t ())
    (hok : ∀ ev ∈ t, Succeeded ev) (hgroup : snapshot.asg_group.isSome)
    (hmin : snapshot.atMin = false) : decremented t = snapshot.drainedOwners := by
  have hsub := decremented_subset h
  rw [if_pos hmin] at hsub
  refine hsub.antisymm fun id hid => ?_
  obtain ⟨l, hl, hdrained, rfl⟩ := mem_drainedOwners.mp hid
  rw [mem_decremented, section21_requests h hok, SystemSnapshot.requests21,
    if_pos (guardsPass_of_drained hgroup hdrained)]
  refine List.mem_flatMap.mpr ⟨l, hl, terminate_mem_requests.mpr ⟨?_, rfl, rfl⟩⟩
  exact exists_retire_iff.mpr ⟨hdrained, hmin⟩

/-- A pass of section 2.1 keeps to the minimum of the group exactly when the group is at its minimum
already, or is above it by at least the number of owners whose backends are drained. -/
theorem section21_respects_min {group : AsgGroupInfo} (hgroup : snapshot.asg_group = some group)
    (clock : PassClock) :
    (∀ t, Exec (section21 snapshot clock false true) t () →
      ((decremented t).card : ℤ) ≤ max 0 (group.desired_capacity - group.min_size)) ↔
      group.desired_capacity ≤ group.min_size ∨
        (snapshot.drainedOwners.card : ℤ) ≤ group.desired_capacity - group.min_size := by
  have hatMin : snapshot.atMin = false ↔ group.min_size < group.desired_capacity := by
    simp [SystemSnapshot.atMin, hgroup, AsgGroupInfo.wouldViolateMin]
  constructor
  · intro hall
    by_cases hle : group.desired_capacity ≤ group.min_size
    · exact .inl hle
    · obtain ⟨t, _, ht, hok⟩ := exists_exec_ok (section21 snapshot clock false true)
      have hbound := hall t ht
      rw [decremented_eq ht hok (by simp [hgroup]) (hatMin.mpr (by omega))] at hbound
      exact .inr (by omega)
  · intro hcond t ht
    have hcard := Finset.card_le_card (decremented_subset ht)
    rcases hcond with hle | hle
    · rw [if_neg (by rw [hatMin]; omega), Finset.card_empty] at hcard
      omega
    · by_cases hmin : snapshot.atMin = false
      · rw [if_pos hmin] at hcard
        omega
      · rw [if_neg hmin, Finset.card_empty] at hcard
        omega

end Pass

/-- Two instances in service, both drained, in a group of two that must keep one. -/
def twoDrained : SystemSnapshot :=
  assemble ⟨167772160, 20⟩ [⟨167772180, .draining⟩, ⟨167772181, .draining⟩]
    [⟨0, "i-a", 2000⟩, ⟨1, "i-b", 2000⟩]
    (some ⟨"pool", 2, 1, 4⟩, [⟨"i-a", "InService", "Healthy"⟩, ⟨"i-b", "InService", "Healthy"⟩])
    [⟨167772180, 0, 0⟩, ⟨167772181, 0, 0⟩]

/-- A clock that shows second 1. -/
def firstSecond : PassClock := ⟨fun _ => 1000, fun _ => 10 ^ 9⟩

/-- The same instances in a group of three. -/
def threeWanted : SystemSnapshot := { twoDrained with asg_group := some ⟨"pool", 3, 1, 4⟩ }

/-- With a third instance wanted, both drained owners may go. -/
theorem section21_min_of_three :
    ((decremented (answering okReply (section21 threeWanted firstSecond false true)).1).card : ℤ) ≤
      max 0 (3 - 1) := by
  have hgroup : threeWanted.asg_group = some ⟨"pool", 3, 1, 4⟩ := rfl
  exact (section21_respects_min hgroup firstSecond).mpr (.inr (by decide)) _
    (exec_answering okReply _)

/-- A pass can terminate more instances than the group has above its minimum. -/
theorem section21_below_min :
    ¬ ∀ (snapshot : SystemSnapshot) (group : AsgGroupInfo) (clock : PassClock) (t : List _),
      snapshot.asg_group = some group → Exec (section21 snapshot clock false true) t () →
        ((decremented t).card : ℤ) ≤ max 0 (group.desired_capacity - group.min_size) := by
  intro h
  have hboth := h twoDrained ⟨"pool", 2, 1, 4⟩ firstSecond _ rfl (exec_answering okReply _)
  exact absurd hboth (by decide)

end Aerosuite.Scale
