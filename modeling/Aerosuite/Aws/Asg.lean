import Aerosuite.Aws.Extract
import Aerosuite.Library.Xml

/-! `parse_asg_describe` of `aerocore::asg`.  Its two loops take one `<member>` after the other
from a text, and `forMembers` is what they share. -/

namespace Aerosuite.Aws

open Search Brackets Xml

structure AsgInstance where
  instance_id : List Char
  availability_zone : List Char
  lifecycle_state : List Char
  health_status : List Char
  deriving DecidableEq

structure AsgGroup where
  name : List Char
  desired_capacity : ℤ
  min_size : ℤ
  max_size : ℤ
  instances : List AsgInstance
  deriving DecidableEq

def MEMBER : List Char := "member".toList

/-- The loop over the blocks `<member>` of a text, for a number of rounds: `body` reads a block, and
may leave it out. -/
def forMembers {β : Type} (body : List Char → Checked (Option β)) :
    ℕ → List Char → Checked (List β)
  | 0, _ => .error .unfinished
  | rounds + 1, remaining => do
    match ← extractBalanced remaining MEMBER with
    | none => pure []
    | some xml =>
      let skip := ((find (openTag MEMBER) remaining).map fun i =>
        i + (openTag MEMBER).length + xml.length + (closeTag MEMBER).length).getD remaining.length
      let rest ← sliceFrom remaining skip
      let item ← body xml
      let items ← forMembers body rounds rest
      pure (item.toList ++ items)

/-- `parse_i64`. -/
def parseI64 (haystack tag : List Char) : Checked ℤ := do
  let text ← extractScalar haystack tag
  pure ((text.bind Text.parseI64).getD 0)

def parseInstance (inst_xml : List Char) : Checked (Option AsgInstance) := do
  let instance_id ← extractScalar inst_xml "InstanceId".toList
  let availability_zone ← extractScalar inst_xml "AvailabilityZone".toList
  let lifecycle_state ← extractScalar inst_xml "LifecycleState".toList
  let health_status ← extractScalar inst_xml "HealthStatus".toList
  pure (some ⟨instance_id.getD "(unknown)".toList, availability_zone.getD [],
    lifecycle_state.getD [], health_status.getD []⟩)

def parseInstances (group_xml : List Char) : Checked (List AsgInstance) := do
  match ← extractBalanced group_xml "Instances".toList with
  | none => pure []
  | some instances_block => forMembers parseInstance (instances_block.length + 1) instances_block

/-- A block without a name of a group is left out. -/
def parseGroup (group_xml : List Char) : Checked (Option AsgGroup) := do
  match ← extractScalar group_xml "AutoScalingGroupName".toList with
  | none => pure none
  | some name =>
    let instances ← parseInstances group_xml
    let desired_capacity ← parseI64 group_xml "DesiredCapacity".toList
    let min_size ← parseI64 group_xml "MinSize".toList
    let max_size ← parseI64 group_xml "MaxSize".toList
    pure (some ⟨name, desired_capacity, min_size, max_size, instances⟩)

/-- `parse_asg_describe`. -/
def parseAsgDescribe (xml : List Char) : Checked (List AsgGroup) :=
  forMembers parseGroup (xml.length + 1) xml

section Total

theorem lt_not_mem_member : '<' ∉ MEMBER := by decide +kernel

theorem gt_not_mem_member : '>' ∉ MEMBER := by decide +kernel

/-- A round of the loop takes the first block. -/
theorem forMembers_succ {β : Type} {body : List Char → Checked (Option β)} {rounds : ℕ}
    {pre xml post : List Char} {item : Option β} {items : List β}
    (hpre : ¬ openTag MEMBER <:+: pre) (hxml : Balanced (openTag MEMBER) (closeTag MEMBER) xml)
    (hbody : body xml = .ok item) (hitems : forMembers body rounds post = .ok items) :
    forMembers body (rounds + 1)
      (pre ++ (openTag MEMBER ++ (xml ++ (closeTag MEMBER ++ post)))) =
        .ok (item.toList ++ items) := by
  obtain ⟨hfind, hslice⟩ := skip_block lt_not_mem_member gt_not_mem_member hpre xml post
  rw [forMembers, extractBalanced_eq_some lt_not_mem_member gt_not_mem_member hpre hxml]
  simp only [bind, Except.bind, hfind, Option.map_some, Option.getD_some, hslice, hbody, hitems]
  rfl

theorem forMembers_of_none {β : Type} (body : List Char → Checked (Option β)) (rounds : ℕ)
    {remaining : List Char} (h : extractBalanced remaining MEMBER = .ok none) :
    forMembers body (rounds + 1) remaining = .ok [] := by
  rw [forMembers, h]
  rfl

theorem forMembers_total {β : Type} {body : List Char → Checked (Option β)}
    (hbody : ∀ xml, ∃ item, body xml = .ok item) (rounds : ℕ) (remaining : List Char)
    (hrounds : remaining.length < rounds) :
      ∃ items, forMembers body rounds remaining = .ok items := by
  induction rounds generalizing remaining with
  | zero => omega
  | succ rounds ih =>
    obtain ⟨r, hr⟩ := extractBalanced_total lt_not_mem_member gt_not_mem_member remaining
    cases r with
    | none => exact ⟨[], forMembers_of_none body rounds hr⟩
    | some xml =>
      obtain ⟨item, hitem⟩ := hbody xml
      obtain ⟨pre, post, rfl, hpre, hxml⟩ :=
        extractBalanced_split lt_not_mem_member gt_not_mem_member hr
      have hword := List.length_pos_iff.mpr (openTag_ne_nil MEMBER)
      simp only [List.length_append] at hrounds
      obtain ⟨items, hitems⟩ := ih post (by omega)
      exact ⟨_, forMembers_succ hpre hxml hitem hitems⟩

theorem parseI64_total (haystack tag : List Char) : ∃ n, parseI64 haystack tag = .ok n := by
  obtain ⟨text, htext⟩ := extractScalar_total haystack tag
  rw [parseI64, htext]
  exact ⟨_, rfl⟩

theorem parseInstance_total (inst_xml : List Char) : ∃ item, parseInstance inst_xml = .ok item := by
  obtain ⟨_, hid⟩ := extractScalar_total inst_xml "InstanceId".toList
  obtain ⟨_, haz⟩ := extractScalar_total inst_xml "AvailabilityZone".toList
  obtain ⟨_, hls⟩ := extractScalar_total inst_xml "LifecycleState".toList
  obtain ⟨_, hhs⟩ := extractScalar_total inst_xml "HealthStatus".toList
  rw [parseInstance, hid, haz, hls, hhs]
  exact ⟨_, rfl⟩

theorem parseInstances_total (group_xml : List Char) :
    ∃ items, parseInstances group_xml = .ok items := by
  obtain ⟨r, hr⟩ : ∃ r, extractBalanced group_xml "Instances".toList = .ok r :=
    extractBalanced_total (by simp) (by simp) group_xml
  rw [parseInstances, hr]
  cases r with
  | none => exact ⟨[], rfl⟩
  | some block => exact forMembers_total parseInstance_total _ block (Nat.lt_succ_self _)

theorem parseGroup_total (group_xml : List Char) : ∃ item, parseGroup group_xml = .ok item := by
  obtain ⟨r, hr⟩ := extractScalar_total group_xml "AutoScalingGroupName".toList
  obtain ⟨_, hinstances⟩ := parseInstances_total group_xml
  obtain ⟨_, hdesired⟩ := parseI64_total group_xml "DesiredCapacity".toList
  obtain ⟨_, hmin⟩ := parseI64_total group_xml "MinSize".toList
  obtain ⟨_, hmax⟩ := parseI64_total group_xml "MaxSize".toList
  rw [parseGroup, hr, hinstances, hdesired, hmin, hmax]
  cases r <;> exact ⟨_, rfl⟩

/-- The parser ends on every text, and never slices outside it. -/
theorem parseAsgDescribe_total (xml : List Char) : ∃ groups, parseAsgDescribe xml = .ok groups :=
  forMembers_total parseGroup_total _ xml (Nat.lt_succ_self _)

end Total

end Aerosuite.Aws
