import Aerosuite.Aws.Asg
import Mathlib.Data.List.Nodup

/-! The documents that `DescribeAutoScalingGroups` answers with, as trees, and what
`parse_asg_describe` reads from them: every group with its name and its instances, in the order of
the document. -/

namespace Aerosuite.Aws

open Search Brackets Xml

namespace Names

def member : Name := alphaName "member".toList (by simp) (by decide +kernel)

def autoScalingGroups : Name := alphaName "AutoScalingGroups".toList (by simp) (by decide +kernel)

def groupName : Name := alphaName "AutoScalingGroupName".toList (by simp) (by decide +kernel)

def instances : Name := alphaName "Instances".toList (by simp) (by decide +kernel)

def instanceId : Name := alphaName "InstanceId".toList (by simp) (by decide +kernel)

def availabilityZone : Name := alphaName "AvailabilityZone".toList (by simp) (by decide +kernel)

def lifecycleState : Name := alphaName "LifecycleState".toList (by simp) (by decide +kernel)

def healthStatus : Name := alphaName "HealthStatus".toList (by simp) (by decide +kernel)

def desiredCapacity : Name := alphaName "DesiredCapacity".toList (by simp) (by decide +kernel)

def minSize : Name := alphaName "MinSize".toList (by simp) (by decide +kernel)

def maxSize : Name := alphaName "MaxSize".toList (by simp) (by decide +kernel)

/-- The names that occur once in their group or instance. -/
def own : List Name :=
  [groupName, instances, instanceId, availabilityZone, lifecycleState, healthStatus]

end Names

/-- An element with text. -/
def leaf (n : Name) (s : CharData) : Tree := .element n [.text s]

/-- The text of an element, without the white space around it. -/
def value (s : CharData) : List Char := Text.trim s

/-- The integer that stands in an element, and 0 when there is none. -/
def intValue : Option (List Tree) → ℤ
  | none => 0
  | some children => (Text.parseI64 (Text.trim (renderAll children))).getD 0

section Scalars

variable {n : Name} {ts : List Tree}

theorem first_leaf (m : Name) (s : CharData) :
    (leaf m s).first n = if m.text = n.text then some [.text s] else none := by
  simp [leaf, Tree.first, firstAll]

theorem extractScalar_tree_none (h : firstAll n ts = none) :
    extractScalar (renderAll ts) n.text = .ok none := by
  have hshows := shows_firstAll (n := n) ts
  rw [h] at hshows
  exact extractScalar_of_not_infix hshows

/-- The scalar is cut from the text of the first element of its name. -/
theorem extractScalar_tree {children : List Tree} (h : firstAll n ts = some children) :
    ∃ text post v, extractScalar (renderAll ts) n.text = .ok (some (Text.trim text)) ∧
      text ++ (n.close.word ++ post) = renderAll children ++ (n.close.word ++ v) ∧
      ¬ n.close.word <:+: text := by
  have hshows := shows_firstAll (n := n) ts
  rw [h] at hshows
  obtain ⟨u, v, hsplit, hu⟩ := hshows
  have hfind : find (openTag n.text) (renderAll ts) = some u.length := by
    rw [hsplit]
    exact Tag.find_word (t := n.start) hu _
  obtain ⟨pre, rest, heq, hpre, hcases⟩ := extractScalar_finds (renderAll ts) hfind
  obtain ⟨rfl, rfl⟩ := first_openTag_unique n.lt_not_mem n.gt_not_mem hu hpre
    (hsplit.symm.trans heq)
  rcases hcases with ⟨-, hnone⟩ | ⟨text, post, hrest, htext, hscalar⟩
  · exact absurd (List.infix_append' (renderAll children) n.close.word v) hnone
  · exact ⟨text, post, v, hscalar, hrest.symm, htext⟩

theorem extractScalar_leaf {s : CharData} (h : firstAll n ts = some [.text s]) :
    extractScalar (renderAll ts) n.text = .ok (some (value s)) := by
  obtain ⟨text, post, v, hscalar, hsplit, htext⟩ := extractScalar_tree h
  have hs : renderAll [.text s] = s.1 := by simp [renderAll, Tree.render]
  rw [hs] at hsplit
  have hclose : ¬ n.close.word <:+: s.1 := fun hin => s.2 (hin.subset n.close.lt_mem_word)
  obtain ⟨rfl, -⟩ := Tag.first_unique htext hclose hsplit
  exact hscalar

theorem parseI64_trim_of_lt {s : List Char} (h : '<' ∈ s) : Text.parseI64 (Text.trim s) = none :=
  Text.parseI64_eq_none (Text.mem_trim h (by decide)) (by decide) (by decide) (by decide)

/-- `parse_i64` reads the first element of its name, at whatever depth it stands. -/
theorem parseI64_tree (n : Name) (ts : List Tree) :
    parseI64 (renderAll ts) n.text = .ok (intValue (firstAll n ts)) := by
  cases h : firstAll n ts with
  | none =>
    rw [parseI64, extractScalar_tree_none h]
    rfl
  | some children =>
    obtain ⟨text, post, v, hscalar, hsplit, htext⟩ := extractScalar_tree h
    rw [parseI64, hscalar]
    rcases Tag.append_word_eq htext hsplit with ⟨-, rfl, -⟩ | ⟨inner, hchildren, -⟩
    · rfl
    · -- The element has another one of its name inside, and neither text is an integer.
      have hlt : '<' ∈ text := by
        have hbalanced := (balanced_renderAll n children).2 (text ++ n.close.word)
          ⟨inner, by rw [hchildren, List.append_assoc]⟩
        have hclose := n.close.occ_cut n.close text []
        have hstart := n.start.occ_cut n.close text []
        rw [List.append_nil, if_pos rfl] at hclose
        rw [List.append_nil, if_neg Name.start_ne_close] at hstart
        rw [hclose, hstart] at hbalanced
        have hocc : occ n.start.word text ≠ 0 := by
          simp only [occ] at hbalanced
          omega
        rw [Ne, occ_eq_zero n.start.word_ne_nil, not_not] at hocc
        exact hocc.subset n.start.lt_mem_word
      have hlt' : '<' ∈ renderAll children := by
        rw [hchildren]
        exact List.mem_append_left _ hlt
      simp only [bind, Except.bind, pure, Except.pure, intValue, Option.bind_some,
        parseI64_trim_of_lt hlt, parseI64_trim_of_lt hlt']

/-- A field of an element is found in any order of its children. -/
theorem firstAll_field {fields : List (Name × CharData)} {others children : List Tree}
    (horder : children.Perm (fields.map (fun f => leaf f.1 f.2) ++ others))
    (hnames : (fields.map fun f => f.1.text).Nodup) {f : Name × CharData} (hf : f ∈ fields)
    (hothers : ∀ t ∈ others, t.first f.1 = none) :
    firstAll f.1 children = some [.text f.2] := by
  have hfirst : (leaf f.1 f.2).first f.1 = some [.text f.2] := by rw [first_leaf, if_pos rfl]
  refine firstAll_eq_some (t := leaf f.1 f.2) ?_ hfirst fun t ht => ?_
  · rw [horder.mem_iff]
    exact List.mem_append_left _ (List.mem_map_of_mem hf)
  · rcases List.mem_append.mp (horder.mem_iff.mp ht) with ht | ht
    · obtain ⟨g, hg, rfl⟩ := List.mem_map.mp ht
      by_cases htext : g.1.text = f.1.text
      · left
        rw [List.inj_on_of_nodup_map hnames hg hf htext]
      · right
        rw [first_leaf, if_neg htext]
    · exact Or.inr (hothers t ht)

end Scalars

/-- An instance of a group: its fields and any other elements, in any order. -/
structure InstanceDoc where
  instance_id : CharData
  availability_zone : CharData
  lifecycle_state : CharData
  health_status : CharData
  others : List Tree
  children : List Tree
  order : children.Perm ([(Names.instanceId, instance_id),
    (Names.availabilityZone, availability_zone), (Names.lifecycleState, lifecycle_state),
    (Names.healthStatus, health_status)].map (fun f => leaf f.1 f.2) ++ others)
  foreign : ∀ t ∈ others, ∀ n ∈ Names.own, t.first n = none

/-- What an instance says. -/
def InstanceDoc.read (d : InstanceDoc) : AsgInstance :=
  ⟨value d.instance_id, value d.availability_zone, value d.lifecycle_state, value d.health_status⟩

/-- The element for the instances of a group: `<Instances/>`, or a list of instances. -/
inductive InstancesDoc where
  | alone
  | list (items : List (CharData × InstanceDoc)) (tail : CharData)

namespace InstancesDoc

def tree : InstancesDoc → Tree
  | .alone => .empty Names.instances
  | .list items tail => .element Names.instances
      (listing Names.member (items.map fun i => (i.1, i.2.children)) tail)

def read : InstancesDoc → List AsgInstance
  | .alone => []
  | .list items _ => items.map fun i => i.2.read

end InstancesDoc

/-- A group: its name, its instances and any other elements, in any order. -/
structure GroupDoc where
  name : CharData
  instances : InstancesDoc
  others : List Tree
  children : List Tree
  order : children.Perm ([(Names.groupName, name)].map (fun f => leaf f.1 f.2) ++
    (instances.tree :: others))
  foreign : ∀ t ∈ others, ∀ n ∈ Names.own, t.first n = none

/-- The document: a list of elements `<member>` within some text that has no others. -/
structure Document (α : Type) where
  before : List Char
  before_plain : ¬ openTag MEMBER <:+: before
  groups : List (CharData × α)
  tail : CharData
  after : List Char
  after_plain : ¬ openTag MEMBER <:+: after

def Document.text {α : Type} (doc : Document α) (children : α → List Tree) : List Char :=
  enclosed doc.before Names.autoScalingGroups
    (listing Names.member (doc.groups.map fun g => (g.1, children g.2)) doc.tail) doc.after

section Members

variable {β : Type} {body : List Char → Checked (Option β)}

/-- The loop reads every block, in order. -/
theorem forMembers_blocks {δ : Type} {xml : δ → List Char} {P : δ → β → Prop} {docs : List δ}
    {s : List Char} (hblocks : Blocks Names.member (docs.map xml) s)
    (hbody : ∀ d ∈ docs, ∃ item, body (xml d) = .ok (some item) ∧ P d item) (rounds : ℕ)
    (hrounds : s.length < rounds) :
    ∃ items, forMembers body rounds s = .ok items ∧ List.Forall₂ P docs items := by
  induction docs generalizing s rounds with
  | nil =>
    cases hblocks with
    | done h =>
      obtain ⟨rounds, rfl⟩ : ∃ n, rounds = n + 1 := ⟨rounds - 1, by omega⟩
      exact ⟨[], forMembers_of_none body rounds (extractBalanced_eq_none h), .nil⟩
  | cons d docs ih =>
    cases hblocks with
    | block hgap hinner rest =>
      obtain ⟨rounds, rfl⟩ : ∃ n, rounds = n + 1 := ⟨rounds - 1, by omega⟩
      obtain ⟨item, hitem, hp⟩ := hbody d List.mem_cons_self
      have hword := List.length_pos_iff.mpr Names.member.start.word_ne_nil
      simp only [List.length_append] at hrounds
      obtain ⟨items, hitems, hall⟩ :=
        ih rest (fun d hd => hbody d (List.mem_cons_of_mem _ hd)) rounds (by omega)
      exact ⟨item :: items, forMembers_succ hgap hinner hitem hitems, .cons hp hall⟩

end Members

section Read

theorem fieldNames_nodup : [Names.instanceId.text, Names.availabilityZone.text,
    Names.lifecycleState.text, Names.healthStatus.text].Nodup := by decide +kernel

/-- An instance has only its own four elements of those names. -/
theorem InstanceDoc.lacks (d : InstanceDoc) {n : Name}
    (hn : n = Names.groupName ∨ n = Names.instances) : firstAll n d.children = none := by
  rw [firstAll_eq_none]
  intro t ht
  rcases List.mem_append.mp (d.order.mem_iff.mp ht) with ht | ht
  · have hne : ∀ m ∈ [Names.instanceId, Names.availabilityZone, Names.lifecycleState,
        Names.healthStatus], m.text ≠ n.text := by
      rcases hn with rfl | rfl <;> decide +kernel
    obtain ⟨f, hf, rfl⟩ := List.mem_map.mp ht
    rw [first_leaf, if_neg]
    apply hne
    simp only [List.mem_cons, List.not_mem_nil, or_false] at hf
    rcases hf with rfl | rfl | rfl | rfl <;> simp
  · apply d.foreign t ht
    rcases hn with rfl | rfl <;> simp [Names.own]

theorem InstanceDoc.parse (d : InstanceDoc) :
    parseInstance (renderAll d.children) = .ok (some d.read) := by
  have hfield : ∀ f ∈ [(Names.instanceId, d.instance_id),
      (Names.availabilityZone, d.availability_zone), (Names.lifecycleState, d.lifecycle_state),
      (Names.healthStatus, d.health_status)], f.1 ∈ Names.own →
      extractScalar (renderAll d.children) f.1.text = .ok (some (value f.2)) := by
    intro f hf hown
    apply extractScalar_leaf
    apply firstAll_field d.order _ hf
    · exact fun t ht => d.foreign t ht f.1 hown
    · exact fieldNames_nodup
  have hid := hfield (Names.instanceId, d.instance_id) (by simp) (by simp [Names.own])
  have haz := hfield (Names.availabilityZone, d.availability_zone) (by simp) (by simp [Names.own])
  have hls := hfield (Names.lifecycleState, d.lifecycle_state) (by simp) (by simp [Names.own])
  have hhs := hfield (Names.healthStatus, d.health_status) (by simp) (by simp [Names.own])
  simp only [Names.instanceId, Names.availabilityZone, Names.lifecycleState, Names.healthStatus,
    alphaName] at hid haz hls hhs
  rw [parseInstance, hid, haz, hls, hhs]
  rfl

/-- The list of instances has no name of a group and no other `<Instances>`. -/
theorem InstancesDoc.lacks {items : List (CharData × InstanceDoc)} {tail : CharData} {n : Name}
    (hn : n = Names.groupName ∨ n = Names.instances) :
    firstAll n (listing Names.member (items.map fun i => (i.1, i.2.children)) tail) = none := by
  have hmember : Names.member.text ≠ n.text := by
    rcases hn with rfl | rfl <;> decide +kernel
  rw [firstAll_eq_none]
  intro t ht
  simp only [listing, List.mem_append, List.mem_flatMap, List.mem_map, List.mem_singleton] at ht
  rcases ht with ⟨_, ⟨i, -, rfl⟩, ht⟩ | rfl
  · simp only [List.mem_cons, List.not_mem_nil, or_false] at ht
    rcases ht with rfl | rfl
    · rw [Tree.first]
    · rw [Tree.first, if_neg hmember]
      exact i.2.lacks hn
  · rw [Tree.first]

theorem InstancesDoc.first_groupName (d : InstancesDoc) : d.tree.first Names.groupName = none := by
  cases d with
  | alone => simp [tree, Tree.first]
  | list items tail =>
    have hne : Names.instances.text ≠ Names.groupName.text := by decide +kernel
    simp only [tree, Tree.first]
    rw [if_neg hne]
    exact InstancesDoc.lacks (Or.inl rfl)

theorem InstancesDoc.parse (items : List (CharData × InstanceDoc)) (tail : CharData) :
    forMembers parseInstance
        ((renderAll (listing Names.member (items.map fun i => (i.1, i.2.children)) tail)).length +
          1)
        (renderAll (listing Names.member (items.map fun i => (i.1, i.2.children)) tail)) =
      .ok (items.map fun i => i.2.read) := by
  have hblocks := blocks_listing tail (not_start_infix_text Names.member (s := []) (by simp))
    (items.map fun i => (i.1, i.2.children))
  rw [List.append_nil, List.map_map] at hblocks
  obtain ⟨instances, hinstances, hall⟩ := forMembers_blocks
    (P := fun i item => i.2.read = item) hblocks (fun i _ => ⟨i.2.read, i.2.parse, rfl⟩) _
    (Nat.lt_succ_self _)
  have heq : List.Forall₂ (· = ·) (items.map fun i => i.2.read) instances :=
    List.forall₂_map_left_iff.mpr hall
  rw [List.forall₂_eq_eq_eq] at heq
  rw [hinstances, heq]

/-- The instances of a group are read in order. -/
theorem GroupDoc.parse_instances (d : GroupDoc) :
    parseInstances (renderAll d.children) = .ok d.instances.read := by
  have hothers : ∀ t ∈ d.others, t.first Names.instances = none :=
    fun t ht => d.foreign t ht _ (by simp [Names.own])
  have hname : Names.groupName.text ≠ Names.instances.text := by decide +kernel
  have hmem : ∀ t ∈ d.children, t = d.instances.tree ∨ t.first Names.instances = none := by
    intro t ht
    rcases List.mem_append.mp (d.order.mem_iff.mp ht) with ht | ht
    · obtain rfl := List.mem_singleton.mp ht
      right
      rw [first_leaf, if_neg hname]
    · exact (List.mem_cons.mp ht).imp_right (hothers t)
  have hshows := shows_firstAll (n := Names.instances) d.children
  rw [parseInstances]
  cases hdoc : d.instances with
  | alone =>
    have hnone : firstAll Names.instances d.children = none := by
      rw [firstAll_eq_none]
      intro t ht
      rcases hmem t ht with rfl | hnone
      · simp [hdoc, InstancesDoc.tree, Tree.first]
      · exact hnone
    rw [hnone] at hshows
    have hextract : extractBalanced _ "Instances".toList = .ok none :=
      extractBalanced_eq_none hshows
    rw [hextract]
    rfl
  | list items tail =>
    have hsome : firstAll Names.instances d.children =
        some (listing Names.member (items.map fun i => (i.1, i.2.children)) tail) := by
      apply firstAll_eq_some (t := d.instances.tree)
      · rw [d.order.mem_iff]
        simp
      · rw [hdoc, InstancesDoc.tree, Tree.first, if_pos rfl]
      · exact hmem
    rw [hsome] at hshows
    obtain ⟨u, v, hsplit, hu⟩ := hshows
    have hextract : extractBalanced (renderAll d.children) "Instances".toList = .ok (some
        (renderAll (listing Names.member (items.map fun i => (i.1, i.2.children)) tail))) := by
      rw [hsplit]
      exact extractBalanced_eq_some Names.instances.lt_not_mem Names.instances.gt_not_mem hu
        (balanced_renderAll Names.instances _)
    rw [hextract]
    exact InstancesDoc.parse items tail

theorem GroupDoc.parse_name (d : GroupDoc) :
    extractScalar (renderAll d.children) Names.groupName.text = .ok (some (value d.name)) := by
  apply extractScalar_leaf
  apply firstAll_field d.order (f := (Names.groupName, d.name)) (by simp) (by simp)
  intro t ht
  rcases List.mem_cons.mp ht with rfl | ht
  · exact d.instances.first_groupName
  · exact d.foreign t ht _ (by simp [Names.own])

/-- A document whose groups are read is read. -/
theorem Document.parse {α : Type} {children : α → List Tree} {P : CharData × α → AsgGroup → Prop}
    (doc : Document α) (hgroup : ∀ d ∈ doc.groups, ∃ group,
      parseGroup (renderAll (children d.2)) = .ok (some group) ∧ P d group) :
    ∃ groups, parseAsgDescribe (doc.text children) = .ok groups ∧
      List.Forall₂ P doc.groups groups := by
  have hne : Names.autoScalingGroups ≠ Names.member := fun h => by
    have htext : Names.autoScalingGroups.text ≠ Names.member.text := by decide +kernel
    exact htext (congrArg Name.text h)
  have hblocks := blocks_enclosed hne doc.before_plain doc.after_plain doc.tail
    (doc.groups.map fun g => (g.1, children g.2))
  rw [List.map_map] at hblocks
  exact forMembers_blocks hblocks hgroup _ (Nat.lt_succ_self _)

/-- A group with a name is read with its capacities and its instances. -/
theorem parseGroup_tree {ts : List Tree} {name : List Char} {instances : List AsgInstance}
    (hname : extractScalar (renderAll ts) Names.groupName.text = .ok (some name))
    (hinstances : parseInstances (renderAll ts) = .ok instances) :
    parseGroup (renderAll ts) = .ok (some ⟨name, intValue (firstAll Names.desiredCapacity ts),
      intValue (firstAll Names.minSize ts), intValue (firstAll Names.maxSize ts), instances⟩) := by
  have hdesired : parseI64 (renderAll ts) "DesiredCapacity".toList = _ :=
    parseI64_tree Names.desiredCapacity ts
  have hmin : parseI64 (renderAll ts) "MinSize".toList = _ := parseI64_tree Names.minSize ts
  have hmax : parseI64 (renderAll ts) "MaxSize".toList = _ := parseI64_tree Names.maxSize ts
  have hgroup : extractScalar (renderAll ts) "AutoScalingGroupName".toList = _ := hname
  rw [parseGroup, hgroup, hinstances, hdesired, hmin, hmax]
  rfl

end Read

/-- `parse_asg_describe` ends on every text, and reads every group of a document with its name and
its instances. -/
theorem parse_asg_describe_recovers :
    (∀ xml, ∃ groups, parseAsgDescribe xml = .ok groups) ∧
    ∀ doc : Document GroupDoc, ∃ groups,
      parseAsgDescribe (doc.text GroupDoc.children) = .ok groups ∧
      List.Forall₂ (fun d g => g.name = value d.2.name ∧ g.instances = d.2.instances.read)
        doc.groups groups := by
  refine ⟨parseAsgDescribe_total, fun doc => ?_⟩
  apply doc.parse
  rintro ⟨gap, d⟩ -
  exact ⟨_, parseGroup_tree d.parse_name d.parse_instances, rfl, rfl⟩

section Sample

/-- An instance with its fields in the order of the service. -/
def instanceDoc (instance_id availability_zone health_status lifecycle_state : CharData) :
    InstanceDoc where
  instance_id := instance_id
  availability_zone := availability_zone
  lifecycle_state := lifecycle_state
  health_status := health_status
  others := []
  children := [leaf Names.instanceId instance_id, leaf Names.availabilityZone availability_zone,
    leaf Names.healthStatus health_status, leaf Names.lifecycleState lifecycle_state]
  order := .cons _ (.cons _ (.swap _ _ _))
  foreign := by simp

def sampleInstances : InstancesDoc :=
  .list [(noText, instanceDoc (charData "i-0a1b2c3d".toList (by decide +kernel))
    (charData "eu-west-2a".toList (by decide +kernel))
    (charData "Healthy".toList (by decide +kernel))
    (charData "InService".toList (by decide +kernel)))] noText

/-- Sizes, and tags, which are in elements `<member>` as well. -/
def sampleOthers : List Tree :=
  [leaf Names.minSize (charData "1".toList (by decide +kernel)),
    .element (alphaName "Tags".toList (by simp) (by decide +kernel))
      [.element Names.member [leaf (alphaName "Key".toList (by simp) (by decide +kernel))
        (charData "Name".toList (by decide +kernel))]]]

theorem sampleOthers_foreign : ∀ t ∈ sampleOthers, ∀ n ∈ Names.own, t.first n = none := by
  decide +kernel

def sampleGroup : GroupDoc where
  name := charData "aeroftp".toList (by decide +kernel)
  instances := sampleInstances
  others := sampleOthers
  children := sampleOthers ++ [leaf Names.groupName (charData "aeroftp".toList (by decide +kernel)),
    sampleInstances.tree]
  order := List.perm_append_comm
  foreign := sampleOthers_foreign

def sampleDocument : Document GroupDoc where
  before := "<DescribeAutoScalingGroupsResponse><DescribeAutoScalingGroupsResult>".toList
  before_plain := by decide +kernel
  groups := [(noText, sampleGroup)]
  tail := noText
  after := "</DescribeAutoScalingGroupsResult></DescribeAutoScalingGroupsResponse>".toList
  after_plain := by decide +kernel

example : parseAsgDescribe (sampleDocument.text GroupDoc.children) =
    .ok [⟨"aeroftp".toList, 0, 1, 0, [⟨"i-0a1b2c3d".toList, "eu-west-2a".toList,
      "InService".toList, "Healthy".toList⟩]⟩] := by decide +kernel

end Sample

end Aerosuite.Aws
