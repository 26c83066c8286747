import Aerosuite.Aws.AsgDocument

/-! The capacities that `parse_asg_describe` reports.  A scalar is taken from the first element of
its name in the text of a group, so an element of that name inside an earlier child of the group
takes the place of the group's own. -/

namespace Aerosuite.Aws

open Xml

/-- The text of an integer. -/
structure IntText where
  text : CharData
  int : ℤ
  parses : Text.parseI64 (value text) = some int

/-- A group with its capacities: its own elements and any others, in any order, where no other
child of the group has the name of a capacity. -/
structure CapacityDoc where
  name : CharData
  desired_capacity : IntText
  min_size : IntText
  max_size : IntText
  others : List Tree
  children : List Tree
  order : children.Perm ([(Names.groupName, name), (Names.desiredCapacity, desired_capacity.text),
    (Names.minSize, min_size.text), (Names.maxSize, max_size.text)].map (fun f => leaf f.1 f.2) ++
      others)
  others_direct : ∀ n ∈ [Names.desiredCapacity, Names.minSize, Names.maxSize],
    ∀ cs, Tree.element n cs ∉ others

/-- No child of the group before the group's own element `<n>` has inside a first `<n>` with
another integer. -/
def Unshadowed (children : List Tree) (n : Name) (i : IntText) : Prop :=
  ∀ pre post, children = pre ++ leaf n i.text :: post →
    ∀ cs, firstAll n pre = some cs → intValue (some cs) = i.int

/-- The capacities of the group are not shadowed. -/
structure CapacityDoc.Clear (d : CapacityDoc) : Prop where
  desired_capacity : Unshadowed d.children Names.desiredCapacity d.desired_capacity
  min_size : Unshadowed d.children Names.minSize d.min_size
  max_size : Unshadowed d.children Names.maxSize d.max_size

/-- The reported capacities are those of the group's own elements. -/
structure CapacityDoc.Own (d : CapacityDoc) (group : AsgGroup) : Prop where
  desired_capacity : group.desired_capacity = d.desired_capacity.int
  min_size : group.min_size = d.min_size.int
  max_size : group.max_size = d.max_size.int

theorem intValue_text (i : IntText) : intValue (some [.text i.text]) = i.int := by
  have hrender : renderAll [.text i.text] = i.text.1 := by simp [renderAll, Tree.render]
  have hparse : Text.parseI64 (Text.trim i.text.1) = some i.int := i.parses
  rw [intValue, hrender, hparse]
  rfl

/-- The first element `<n>` of the group has the integer of its own one exactly when that is not
shadowed. -/
theorem intValue_firstAll_iff {children : List Tree} {n : Name} {i : IntText}
    (hmem : leaf n i.text ∈ children) :
    intValue (firstAll n children) = i.int ↔ Unshadowed children n i := by
  have hsplit : ∀ pre post, children = pre ++ leaf n i.text :: post →
      intValue (firstAll n children) =
        (firstAll n pre).elim i.int fun cs => intValue (some cs) := by
    rintro pre post rfl
    rw [firstAll_append]
    cases firstAll n pre with
    | none =>
      simp only [Option.none_or]
      rw [firstAll, first_leaf, if_pos rfl, Option.some_or, intValue_text]
      rfl
    | some cs => rfl
  constructor
  · intro h pre post heq cs hcs
    have hvalue := hsplit pre post heq
    rw [hcs, h] at hvalue
    exact hvalue.symm
  · intro h
    obtain ⟨pre, post, heq⟩ := List.append_of_mem hmem
    rw [hsplit pre post heq]
    cases hcs : firstAll n pre with
    | none => rfl
    | some cs => exact h pre post heq cs hcs

theorem CapacityDoc.parse (d : CapacityDoc) : ∃ group,
    parseGroup (renderAll d.children) = .ok (some group) ∧ (d.Own group ↔ d.Clear) := by
  have hmem : ∀ f ∈ [(Names.groupName, d.name), (Names.desiredCapacity, d.desired_capacity.text),
      (Names.minSize, d.min_size.text), (Names.maxSize, d.max_size.text)],
      leaf f.1 f.2 ∈ d.children := by
    intro f hf
    rw [d.order.mem_iff]
    exact List.mem_append_left _ (List.mem_map_of_mem hf)
  have hname : ∃ name, extractScalar (renderAll d.children) Names.groupName.text =
      .ok (some name) := by
    cases h : firstAll Names.groupName d.children with
    | none =>
      have hleaf := firstAll_eq_none.mp h _ (hmem (Names.groupName, d.name) (by simp))
      rw [first_leaf, if_pos rfl] at hleaf
      cases hleaf
    | some cs =>
      obtain ⟨text, _, _, hscalar, -⟩ := extractScalar_tree h
      exact ⟨_, hscalar⟩
  obtain ⟨name, hname⟩ := hname
  obtain ⟨instances, hinstances⟩ := parseInstances_total (renderAll d.children)
  have hdesired := intValue_firstAll_iff
    (hmem (Names.desiredCapacity, d.desired_capacity.text) (by simp))
  have hmin := intValue_firstAll_iff (hmem (Names.minSize, d.min_size.text) (by simp))
  have hmax := intValue_firstAll_iff (hmem (Names.maxSize, d.max_size.text) (by simp))
  refine ⟨_, parseGroup_tree hname hinstances, ?_⟩
  constructor
  · rintro ⟨h₁, h₂, h₃⟩
    exact ⟨hdesired.mp h₁, hmin.mp h₂, hmax.mp h₃⟩
  · rintro ⟨h₁, h₂, h₃⟩
    exact ⟨hdesired.mpr h₁, hmin.mpr h₂, hmax.mpr h₃⟩

/-- Each group of a document is reported with its own capacities exactly when these are not
shadowed. -/
theorem asg_capacities_own_iff (doc : Document CapacityDoc) : ∃ groups,
    parseAsgDescribe (doc.text CapacityDoc.children) = .ok groups ∧
      List.Forall₂ (fun d group => d.2.Own group ↔ d.2.Clear) doc.groups groups :=
  doc.parse fun d _ => d.2.parse

def warmPool : Tree :=
  .element (alphaName "WarmPoolConfiguration".toList (by simp) (by decide +kernel))
    [leaf Names.minSize (charData ['0'] (by decide))]

/-- A group whose warm pool has a minimum of its own. -/
def warmPoolGroup : CapacityDoc where
  name := charData "web".toList (by simp)
  desired_capacity := ⟨charData ['2'] (by decide), 2, by decide⟩
  min_size := ⟨charData ['2'] (by decide), 2, by decide⟩
  max_size := ⟨charData ['4'] (by decide), 4, by decide⟩
  others := [warmPool]
  children := [leaf Names.groupName (charData "web".toList (by simp)), warmPool,
    leaf Names.desiredCapacity (charData ['2'] (by decide)),
    leaf Names.minSize (charData ['2'] (by decide)),
    leaf Names.maxSize (charData ['4'] (by decide))]
  order := .cons _ (List.perm_append_singleton warmPool _).symm
  others_direct := by
    intro n hn cs hmem
    obtain ⟨rfl, -⟩ := Tree.element.inj (List.mem_singleton.mp hmem)
    have htext := List.mem_map_of_mem (f := Name.text) hn
    revert htext
    decide +kernel

def warmPoolDocument : Document CapacityDoc where
  before := "<DescribeAutoScalingGroupsResult>".toList
  before_plain := by decide +kernel
  groups := [(charData [] (by simp), warmPoolGroup)]
  tail := charData [] (by simp)
  after := "</DescribeAutoScalingGroupsResult>".toList
  after_plain := by decide +kernel

/-- The group has the minimum 2 and is reported with the minimum 0 of its warm pool. -/
theorem asg_capacities_warm_pool :
    parseAsgDescribe (warmPoolDocument.text CapacityDoc.children) =
      .ok [⟨"web".toList, 2, 0, 4, []⟩] ∧ warmPoolGroup.min_size.int = 2 := by
  refine ⟨?_, rfl⟩
  decide +kernel

end Aerosuite.Aws
