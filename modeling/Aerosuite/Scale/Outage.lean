import Aerosuite.Scale.Cleanup
import Aerosuite.Scale.Scaler

/-! A cycle whose query of the Auto Scaling Group fails, or shows no instance in service while there
are leases.  Such a cycle touches nothing that is leased. -/

namespace Aerosuite.Scale

open Pool Program

/-- The operation is not for the master only, and it writes no weight of a backend with a lease. -/
def SystemSnapshot.Untouched (snapshot : SystemSnapshot) (e : Eff) : Prop :=
  e.acts = false ∧ ∀ b ∈ snapshot.backends, b.lease.isSome →
    ∀ value, e ≠ .writeFile (weightFile b.ip) value

section Sections

variable {snapshot : SystemSnapshot} {clock : PassClock}
  {dry_run is_master term_decrements_capacity : Bool} {state : CleanupState} {grace : ℕ}

/-- The file of a backend is that of no backend with another lease. -/
def SystemSnapshot.FilesApart (snapshot : SystemSnapshot) : Prop :=
  ∀ b ∈ snapshot.backends, ∀ b' ∈ snapshot.backends, weightFile b.ip = weightFile b'.ip →
    b.lease = b'.lease

theorem filesApart_of_collect {net : SlotNetwork} {cache cache' : OwnerCache}
    {t : List (Event Eff Eff.Reply)} (h : Exec (collect net cache) t (.ok snapshot, cache')) :
    snapshot.FilesApart := by
  obtain ⟨t₁, weights, t₂, leases, groups, content, rfl, h₁, -, rfl⟩ := exec_collect h
  intro b hb b' hb' hname
  obtain ⟨w, hw, rfl⟩ := List.mem_map.mp hb
  obtain ⟨w', hw', rfl⟩ := List.mem_map.mp hb'
  have hip : w.ip = w'.ip := weightFile_injOn (weight_ip_lt h₁ hw) (weight_ip_lt h₁ hw') hname
  dsimp only
  rw [hip]

theorem section22_of_empty (h : snapshot.asg.filter AsgInstance.isInService = []) :
    (section22 snapshot state clock dry_run grace).Always snapshot.Untouched := by
  unfold section22
  rw [h]
  trivial

theorem section23_untouched (h : snapshot.FilesApart) :
    (section23 snapshot dry_run).Always snapshot.Untouched := by
  rw [section23_eq]
  refine Always.forEach fun b hb => ?_
  by_cases hless : b.Leaseless
  · rw [if_pos hless]
    refine Always.bind ?_ fun _ => trivial
    unfold writeWeight
    split
    · trivial
    · refine Always.context ⟨⟨rfl, fun b' hb' hlease value heq => ?_⟩, fun _ => trivial⟩
      have hsame := h b hb b' hb' (Eff.writeFile.inj heq).1
      rw [← hsame, hless.1] at hlease
      cases hlease
  · rw [if_neg hless]
    trivial

/-- When the guards of section 2.1 skip it and no instance is in service, a pass touches nothing
that is leased. -/
theorem cleanupRun_untouched (hfiles : snapshot.FilesApart) (hguards : snapshot.guardsPass = false)
    (hnone : snapshot.asg.filter AsgInstance.isInService = []) :
    (cleanupRun snapshot clock dry_run is_master term_decrements_capacity state grace).Always
      snapshot.Untouched := by
  unfold cleanupRun
  split
  · trivial
  · have h₂₁ : (section21 snapshot clock dry_run term_decrements_capacity).Always
        snapshot.Untouched := by
      rw [section21_eq, if_neg (by simp [hguards])]
      trivial
    exact Always.bind h₂₁ fun _ => Always.bind (section22_of_empty hnone) fun _ =>
      Always.bind (section23_untouched hfiles) fun _ => trivial

end Sections

theorem scalerRun_of_no_group {F : Type} [Scalar F] {snapshot : SystemSnapshot}
    (h : snapshot.asg_group = none) (config : ScaleConfig F) (state : ScalerState F)
    (clock : ScalerClock) (dry_run : Bool) {P : Eff → Prop} :
    (scalerRun snapshot config state clock dry_run).Always P := by
  unfold scalerRun
  dsimp only
  split
  · trivial
  · refine Always.bind ?_ fun state => ?_
    · unfold evaluateScaleUp
      rw [h]
      trivial
    · unfold evaluateDrain drainDecision
      rw [h]
      trivial

theorem asg_of_collect {net : SlotNetwork} {cache cache' : OwnerCache} {snapshot : SystemSnapshot}
    {t : List (Event Eff Eff.Reply)} {reply : Except String (List AsgGroup)}
    (h : Exec (collect net cache) t (.ok snapshot, cache')) (hreply : ⟨.describeAsg, reply⟩ ∈ t) :
    (snapshot.asg_group, snapshot.asg) = asgOfReply reply := by
  obtain ⟨t₁, weights, t₂, leases, groups, content, rfl, h₁, h₂, rfl⟩ := exec_collect h
  have hweights : ∀ r : Except String (List AsgGroup), ⟨Eff.describeAsg, r⟩ ∉ t₁ := by
    intro r hr
    rcases readWeights_always.exec h₁ _ hr with heq | ⟨name, heq⟩ <;> cases heq
  have hleases : ∀ r : Except String (List AsgGroup), ⟨Eff.describeAsg, r⟩ ∉ t₂ := by
    intro r hr
    obtain ⟨c, heq⟩ := readLeases_always.exec h₂ _ hr
    cases heq
  have hgroups : reply = groups := by simpa [hweights, hleases] using hreply
  rw [hgroups]
  rfl

/-- A cycle whose query of the group fails or returns no group touches nothing that is leased, and
neither does the cleanup when the query shows no instance in service while there are leases. -/
theorem outage_guard {F : Type} [Scalar F] {net : SlotNetwork} {cache cache' : OwnerCache}
    {snapshot : SystemSnapshot} {t : List (Event Eff Eff.Reply)}
    {reply : Except String (List AsgGroup)}
    (h : Exec (collect net cache) t (.ok snapshot, cache')) (hreply : ⟨.describeAsg, reply⟩ ∈ t)
    (clock : PassClock) (dry_run is_master term_decrements_capacity : Bool) (state : CleanupState)
    (grace : ℕ) (config : ScaleConfig F) (scalerState : ScalerState F) (scalerClock : ScalerClock) :
    ((∃ e, reply = .error e) ∨ reply = .ok [] →
      (cleanupRun snapshot clock dry_run is_master term_decrements_capacity state grace).Always
          snapshot.Untouched ∧
        (scalerRun snapshot config scalerState scalerClock dry_run).Always snapshot.Untouched) ∧
    (∀ groups, reply = .ok groups →
      (∀ g ∈ groups, ∀ i ∈ g.instances, i.isInService = false) → snapshot.leases ≠ [] →
        (cleanupRun snapshot clock dry_run is_master term_decrements_capacity state grace).Always
          snapshot.Untouched) := by
  have hfiles := filesApart_of_collect h
  obtain ⟨hgroup, hasg⟩ := Prod.mk.inj (asg_of_collect h hreply)
  constructor
  · intro hout
    have hnone : snapshot.asg_group = none ∧ snapshot.asg = [] := by
      rw [hgroup, hasg]
      rcases hout with ⟨e, rfl⟩ | rfl <;> exact ⟨rfl, rfl⟩
    have hguards : snapshot.guardsPass = false := by simp [SystemSnapshot.guardsPass, hnone.1]
    exact ⟨cleanupRun_untouched hfiles hguards (by rw [hnone.2]; rfl),
      scalerRun_of_no_group hnone.1 config scalerState scalerClock dry_run⟩
  · rintro groups rfl hout hleases
    have hnone : snapshot.asg.filter AsgInstance.isInService = [] := by
      rw [List.filter_eq_nil_iff, hasg]
      intro i hi
      obtain ⟨g, hg, hi⟩ := List.mem_flatMap.mp ((List.mem_insertionSort _).mp hi)
      simp [hout g hg i hi]
    have hguards : snapshot.guardsPass = false := by
      simp [SystemSnapshot.guardsPass, SystemSnapshot.asgIds, hnone, hleases]
    exact cleanupRun_untouched hfiles hguards hnone

/-- Slot 0 is leased to i-a and active, and the query of the group answers `groups`. -/
def outageReplies (groups : Except String (List AsgGroup)) : (e : Eff) → e.Reply
  | .readDir => .ok ⟨["backend-10.0.0.20.weight"], none⟩
  | .readFile _ => .ok "0"
  | .redis (.zrangeWithScores _) => .ok [("0", 2000)]
  | .redis (.get _) => .ok (some "i-a")
  | .describeAsg => groups
  | e => okReply e

/-- The snapshot of these replies. -/
def outageSnapshot (groups : Except String (List AsgGroup)) : SystemSnapshot :=
  assemble exampleNet [⟨167772180, .active⟩] [⟨0, "i-a", 2000⟩] (asgOfReply groups) []

variable (groups : Except String (List AsgGroup))

theorem outageSnapshot_collected : Exec (collect exampleNet fun _ => none)
    (answering (outageReplies groups) (collect exampleNet fun _ => none)).1
    (.ok (outageSnapshot groups), Function.update (fun _ => none) 0 (some "i-a")) :=
  exec_answering (outageReplies groups) (collect exampleNet fun _ => none)

theorem outageSnapshot_asked : ⟨.describeAsg, groups⟩ ∈
    (answering (outageReplies groups) (collect exampleNet fun _ => none)).1 := by
  have hops : (answering (outageReplies groups) (collect exampleNet fun _ => none)).1.map Event.op =
      [.readDir, .readFile "backend-10.0.0.20.weight", .redis (.zrangeWithScores .leases),
        .redis (.get (.owner (slotStr 0))), .describeAsg, .readIpvs] := rfl
  exact mem_answering_of_op (show Eff.describeAsg ∈ _ by simp [hops])

/-- With a query that is throttled, and with an instance that is still pending, a pass touches
nothing. -/
theorem outage_of_one_slot :
    let throttled := outageSnapshot (.error "throttled")
    let pending := outageSnapshot (.ok [⟨"pool", 2, 1, 4, [⟨"i-a", "Pending", "Healthy"⟩]⟩])
    let clock : PassClock := ⟨fun _ => 1000, fun _ => 10 ^ 9⟩
    let scalerClock : ScalerClock := ⟨fun _ => 1000, 10 ^ 9, 10 ^ 9, 10 ^ 9, 10 ^ 9, 10 ^ 9, 10 ^ 9⟩
    ((cleanupRun throttled clock false true true ⟨fun _ => none⟩ 60).Always throttled.Untouched ∧
      (scalerRun throttled defaultConfig .default scalerClock false).Always throttled.Untouched) ∧
    (cleanupRun pending clock false true true ⟨fun _ => none⟩ 60).Always pending.Untouched := by
  intro throttled pending clock scalerClock
  constructor
  · exact (outage_guard (outageSnapshot_collected _) (outageSnapshot_asked _) clock false true true
      ⟨fun _ => none⟩ 60 defaultConfig .default scalerClock).1 (.inl ⟨_, rfl⟩)
  · refine (outage_guard (outageSnapshot_collected _) (outageSnapshot_asked _) clock false true true
      ⟨fun _ => none⟩ 60 defaultConfig .default scalerClock).2 _ rfl ?_ ?_
    · decide
    · decide

end Aerosuite.Scale
