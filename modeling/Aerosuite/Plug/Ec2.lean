import Aerosuite.Aws.AsgDocument
import Aerosuite.Library.Query
import Aerosuite.Plug.Guard
import Mathlib.Logic.Relation
import Mathlib.Order.Interval.Set.Defs

/-! What the documentation of EC2 promises to `aeroplug`, as hypotheses on any service: which
network interfaces the answer to a request describes and how it shows them, and what attaching and
detaching do.  EC2 may refuse a request for reasons of its own, and need not confirm one that took
effect. -/

namespace Aerosuite.Plug

open Xml Query Aws

/-- A text that stands in an element as it is. -/
structure Plain where
  text : String
  lt_not_mem : '<' ∉ text.toList
  trimmed : Text.trim text.toList = text.toList

def Plain.data (p : Plain) : CharData := ⟨p.text.toList, p.lt_not_mem⟩

/-- Where an interface is attached. -/
structure Attachment where
  id : Plain
  instance_id : String
  device_index : String

/-- A network interface.  One that is being detached has no attachment any more. -/
structure Eni where
  id : Plain
  description : String
  tags : List (String × String)
  private_ip : Plain
  status : Plain
  attachment : Option Attachment

/-- The value of a filter that means itself, without the wildcards of EC2. -/
def Literal (pattern : String) : Prop := ∀ c ∈ ['*', '?', '\\'], c ∉ pattern.toList

instance (pattern : String) : Decidable (Literal pattern) :=
  inferInstanceAs (Decidable (∀ c ∈ _, _))

namespace Names

def status : Name := alphaName "status".toList (by simp) (by decide +kernel)

def privateIpAddress : Name := alphaName "privateIpAddress".toList (by simp) (by decide +kernel)

def attachment : Name := alphaName "attachment".toList (by simp) (by decide +kernel)

def attachmentId : Name := alphaName "attachmentId".toList (by simp) (by decide +kernel)

end Names

/-- The filters that a selector stands for. -/
def EniSelector.filters : EniSelector → List (String × String)
  | .id _ => []
  | .name value => [("tag:Name", value)]
  | .description desc => [("description", desc)]
  | .tags pairs => pairs.map fun (key, value) => (s!"tag:{key}", value)
  | .slot n => [("tag:aeroftp-slot", toString n)]

/-- The interface is one that the selector names. -/
def EniSelector.Selects (e : Eni) : EniSelector → Prop
  | .id value => e.id.text = value
  | .name value => ("Name", value) ∈ e.tags
  | .description desc => e.description = desc
  | .tags pairs => ∀ pair ∈ pairs, pair ∈ e.tags
  | .slot n => ("aeroftp-slot", toString n) ∈ e.tags

/-- The values that the selector looks for mean themselves. -/
def EniSelector.Plainly (selector : EniSelector) : Prop :=
  ∀ filter ∈ selector.filters, Literal filter.2

/-- A slot number has no wildcards. -/
theorem EniSelector.plainly_slot (slot : ℕ) : (EniSelector.slot slot).Plainly := by
  intro filter hfilter c hc hmem
  obtain rfl : filter = ("tag:aeroftp-slot", toString slot) := by
    simpa [EniSelector.filters] using hfilter
  have hdigit := Nat.isDigit_of_mem_toDigits (by decide) (by decide)
    (show c ∈ Nat.toDigits 10 slot by simpa using hmem)
  simp only [List.mem_cons, List.not_mem_nil, or_false] at hc
  rcases hc with rfl | rfl | rfl <;> exact absurd hdigit (by decide)

section Requests

/-- The filters of a request, with their names and values. -/
def readFilters (params : Params) : List (String × List String) :=
  numbered (fun n => do
    let name ← params.lookup (memberName "Filter" n "Name")
    pure (name, numbered
      (fun m => params.lookup (memberName "Filter" n ("Value." ++ toString m))) params.length 1))
    params.length 1

/-- The ids that a request names. -/
def readIds (params : Params) : List String :=
  numbered (fun n => params.lookup ("NetworkInterfaceId." ++ toString n)) params.length 1

/-- A request that moves an interface. -/
inductive MoveRequest where
  | attach (eni_id instance_id device_index : String)
  | detach (attachment_id : String)
  deriving DecidableEq

namespace MoveRequest

/-- The request that the parameters stand for. -/
def read (params : Params) : Option MoveRequest := do
  let action ← params.lookup "Action"
  if action = "AttachNetworkInterface" then
    let eni_id ← params.lookup "NetworkInterfaceId"
    let instance_id ← params.lookup "InstanceId"
    let device_index ← params.lookup "DeviceIndex"
    pure (.attach eni_id instance_id device_index)
  else if action = "DetachNetworkInterface" then
    let attachment_id ← params.lookup "AttachmentId"
    pure (.detach attachment_id)
  else none

/-- The request is for the interface with this id and attachment. -/
def IsFor (eni_id : String) (held : Option Attachment) : MoveRequest → Prop
  | .attach id _ _ => id = eni_id
  | .detach attachment_id => ∃ a ∈ held, a.id.text = attachment_id

/-- The answer says that the request was served. -/
def Confirms (reply : Except (List String) (List Char)) : MoveRequest → Prop
  | .attach .. => ∃ xml id, reply = .ok xml ∧ scalar xml "attachmentId" = .ok (some id)
  | .detach _ => ∃ xml, reply = .ok xml ∧ scalar xml "return" = .ok (some "true")

end MoveRequest

/-- The request of an operation that moves an interface. -/
def PlugOp.moves : PlugOp → Option MoveRequest
  | .awsQuery _ _ _ _ params => MoveRequest.read params
  | _ => none

theorem moves_of_describes {params : Params} (region : String) (creds : AwsCredentials)
    (h : params.lookup "Action" = some "DescribeNetworkInterfaces") :
    (ec2Op region creds params).moves = none := by
  simp [ec2Op, PlugOp.moves, MoveRequest.read, h]

end Requests

section Answers

/-- The content of an item shows the interface, and its attachment when it is in use. -/
structure Shown (children : List Tree) (e : Eni) : Prop where
  id : firstAll Names.networkInterfaceId children = some [.text e.id.data]
  status : firstAll Names.status children = some [.text e.status.data]
  private_ip : firstAll Names.privateIpAddress children = some [.text e.private_ip.data]
  attachment : e.status.text = "in-use" → ∃ a block, e.attachment = some a ∧
    firstAll Names.attachment children = some block ∧
      firstAll Names.attachmentId block = some [.text a.id.data]

/-- The answer lists the interfaces in this order. -/
inductive Lists : List Char → List Eni → Prop
  | nil {xml : List Char} (h : ¬ itemName.start.word <:+: xml) : Lists xml []
  | cons (doc : EniDocument) {e : Eni} {enis : List Eni}
      (h : List.Forall₂ (fun item e => Shown item.2 e) doc.enis (e :: enis)) :
      Lists doc.text (e :: enis)

end Answers

/-- EC2 and the instance of a command, with states of which only this is known: how operations are
answered, the interfaces by their ids, what a filter lets pass, the time, and the files. -/
structure Ec2 (σ : Type) where
  serve : (op : PlugOp) → σ → op.Reply × σ
  eni : σ → String → Option Eni
  eni_id : ∀ s id e, eni s id = some e → e.id.text = id
  passes : Eni → String → List String → Prop
  time : σ → ℕ
  file : σ → String → Option String

namespace Ec2

variable {σ : Type} (ec2 : Ec2 σ)

section Views

variable (s : σ)

def Has (e : Eni) : Prop := ec2.eni s e.id.text = some e

/-- The attachment of the interface with this id. -/
def held (eni_id : String) : Option Attachment := (ec2.eni s eni_id).bind Eni.attachment

/-- The interface is at the index of the instance. -/
def At (eni_id instance_id device_index : String) : Prop :=
  ∃ a ∈ ec2.held s eni_id, a.instance_id = instance_id ∧ a.device_index = device_index

/-- Another interface is at the index of the instance. -/
def Occupied (eni_id instance_id device_index : String) : Prop :=
  ∃ other, other ≠ eni_id ∧ ec2.At s other instance_id device_index

def Available (eni_id : String) : Prop :=
  ∃ e, ec2.eni s eni_id = some e ∧ e.status.text = "available"

/-- The interface is one that the request asks for. -/
def Described (params : Params) (e : Eni) : Prop :=
  ec2.Has s e ∧ (readIds params = [] ∨ e.id.text ∈ readIds params) ∧
    ∀ filter ∈ readFilters params, ec2.passes e filter.1 filter.2

/-- The interface is one that a command looks for. -/
def Wanted (selector : EniSelector) (status : Option String) (e : Eni) : Prop :=
  ec2.Has s e ∧ selector.Selects e ∧ ∀ st ∈ status, e.status.text = st

/-- From the first state the second is reached by operations that move no interface. -/
def Idles : σ → σ → Prop :=
  Relation.ReflTransGen fun s s' => ∃ op : PlugOp, op.moves = none ∧ (ec2.serve op s).2 = s'

end Views

/-- What the documentation says of EC2 in a region, and of the instance. -/
structure Documented (region instance_id : String) : Prop where
  /-- A filter compares texts, unless there are wildcards in its value. -/
  passes_description : ∀ e value, Literal value →
    (ec2.passes e "description" [value] ↔ e.description = value)
  passes_status : ∀ e value, Literal value →
    (ec2.passes e "status" [value] ↔ e.status.text = value)
  passes_tag : ∀ e key value, Literal value →
    (ec2.passes e ("tag:" ++ key) [value] ↔ (key, value) ∈ e.tags)
  /-- An answer lists exactly the interfaces that were asked for. -/
  describes : ∀ creds params s xml, params.lookup "Action" = some "DescribeNetworkInterfaces" →
    (ec2.serve (ec2Op region creds params) s).1 = .ok xml →
      ∃ listed, Lists xml listed ∧ ∀ e, e ∈ listed ↔ ec2.Described s params e
  /-- An interface is attached to a free index, or the request is not confirmed. -/
  attaches : ∀ creds params s eni_id to_id index,
    MoveRequest.read params = some (.attach eni_id to_id index) →
      let served := ec2.serve (ec2Op region creds params) s
      ¬ ec2.Occupied s eni_id to_id index ∧ ec2.At served.2 eni_id to_id index ∨
        ¬ (MoveRequest.attach eni_id to_id index).Confirms served.1 ∧
          ec2.held served.2 eni_id = ec2.held s eni_id
  /-- An interface is taken from its holder, or the request is not confirmed. -/
  detaches : ∀ creds params s eni_id a, ec2.held s eni_id = some a →
    MoveRequest.read params = some (.detach a.id.text) →
      let served := ec2.serve (ec2Op region creds params) s
      ec2.held served.2 eni_id = none ∨
        ¬ (MoveRequest.detach a.id.text).Confirms served.1 ∧
          ec2.held served.2 eni_id = ec2.held s eni_id
  attachment_unique : ∀ s eni_id other a, ec2.held s eni_id = some a →
    ∀ b ∈ ec2.held s other, b.id.text = a.id.text → other = eni_id
  /-- The metadata name the instance. -/
  imds : ∀ s id, (ec2.serve .fetchImdsInstanceId s).1 = .ok id → id = instance_id
  writes : ∀ s path contents, (ec2.serve (.write path contents) s).1 = .ok () →
    ec2.file (ec2.serve (.write path contents) s).2 path = some contents

/-- Nobody but the command deletes, attaches or detaches the interface. -/
structure LeftAlone (eni_id : String) : Prop where
  stays : ∀ op s, (ec2.eni s eni_id).isSome → (ec2.eni (ec2.serve op s).2 eni_id).isSome
  keeps : ∀ op s, (∀ request ∈ op.moves, ¬ request.IsFor eni_id (ec2.held s eni_id)) →
    ec2.held (ec2.serve op s).2 eni_id = ec2.held s eni_id ∧
      (ec2.Available s eni_id → ec2.Available (ec2.serve op s).2 eni_id)

/-- Nothing is refused that can be done, and nobody else moves an interface. -/
structure Willing (region : String) : Prop where
  alone : ∀ eni_id, ec2.LeftAlone eni_id
  identifies : ∀ s, (ec2.serve .fetchImdsInstanceId s).1.isOk ∧
    (ec2.serve .fetchImdsCredentials s).1.isOk
  describes : ∀ creds params s, params.lookup "Action" = some "DescribeNetworkInterfaces" →
    (∀ id ∈ readIds params, (ec2.eni s id).isSome) →
      (ec2.serve (ec2Op region creds params) s).1.isOk
  attaches : ∀ creds params s eni_id to_id index,
    MoveRequest.read params = some (.attach eni_id to_id index) → ec2.Available s eni_id →
      ¬ ec2.Occupied s eni_id to_id index →
        (MoveRequest.attach eni_id to_id index).Confirms
          (ec2.serve (ec2Op region creds params) s).1
  detaches : ∀ creds params s eni_id a, ec2.held s eni_id = some a →
    MoveRequest.read params = some (.detach a.id.text) →
      (MoveRequest.detach a.id.text).Confirms (ec2.serve (ec2Op region creds params) s).1
  stores : ∀ s, (∀ dir, (ec2.serve (.createDirAll dir) s).1.isOk) ∧
    ∀ path contents, (ec2.serve (.write path contents) s).1.isOk

/-- No operation takes more than `δ` longer than it is meant to, and an interface is available when
it was taken from its holder a time `takes` ago. -/
structure Prompt (δ takes : ℕ) : Prop where
  time_le : ∀ op s, ec2.time s ≤ ec2.time (ec2.serve op s).2
  latency : ∀ op s, (∀ ms, op ≠ .sleep ms) → ec2.time (ec2.serve op s).2 ≤ ec2.time s + δ
  sleeps : ∀ ms s, ec2.time s + ms ≤ ec2.time (ec2.serve (.sleep ms) s).2
  reads : ∀ s, (ec2.serve .now s).1 ∈ Set.Icc (ec2.time s) (ec2.time (ec2.serve .now s).2)
  frees : ∀ op s s' eni_id a, ec2.LeftAlone eni_id → ec2.held s eni_id = some a →
    op.moves = some (.detach a.id.text) → ec2.held (ec2.serve op s).2 eni_id = none →
      ec2.Idles (ec2.serve op s).2 s' → ec2.time (ec2.serve op s).2 + takes ≤ ec2.time s' →
        ec2.Available s' eni_id

end Ec2

section Wire

/-- The parameters of one filter. -/
def filterEntries (filter : String × String) : Params :=
  [("Name", filter.1), ("Value.1", filter.2)]

theorem filterParams_eq (n : ℕ) (name value : String) : filterParams n name value =
    (filterEntries (name, value)).map fun entry => (memberName "Filter" n entry.1, entry.2) := by
  have hfield : ∀ field : String, "Filter." ++ toString n ++ ("." ++ field) =
      memberName "Filter" n field := fun field =>
    String.toList_injective (by simp [memberName])
  have hname : s!"Filter.{n}.Name" = memberName "Filter" n "Name" := hfield "Name"
  have hvalue : s!"Filter.{n}.Value.1" = memberName "Filter" n "Value.1" := hfield "Value.1"
  rw [filterParams, hname, hvalue]
  rfl

theorem tags_foldl (pairs : List (String × String)) (owned : Params) (n : ℕ) :
    pairs.foldl (fun (owned, filter_n) (key, value) =>
      (owned ++ filterParams filter_n s!"tag:{key}" value, filter_n + 1)) (owned, n) =
    (owned ++ members "Filter" filterEntries n
      (pairs.map fun (key, value) => (s!"tag:{key}", value)), n + pairs.length) := by
  induction pairs generalizing owned n with
  | nil => simp [members]
  | cons pair pairs ih =>
    obtain ⟨key, value⟩ := pair
    rw [List.foldl_cons, ih, filterParams_eq, List.map_cons, members, List.append_assoc,
      List.length_cons, Nat.add_right_comm, Nat.add_assoc]

/-- The ids that a selector names. -/
def EniSelector.ids : EniSelector → List String
  | .id value => [value]
  | _ => []

theorem selectorParams_eq (selector : EniSelector) : selectorParams selector =
    (selector.ids.map (fun id => ("NetworkInterfaceId.1", id)) ++
      members "Filter" filterEntries 1 selector.filters, 1 + selector.filters.length) := by
  cases selector with
  | id value => rfl
  | name value | description value | slot value =>
    simp [selectorParams, EniSelector.ids, EniSelector.filters, members, filterParams_eq]
  | tags pairs =>
    rw [selectorParams, tags_foldl]
    simp [EniSelector.ids, EniSelector.filters]

def statusFilters (status : Option String) : List (String × String) :=
  status.toList.map fun s => ("status", s)

/-- A request lists the filters of its selector and then that for the status. -/
theorem describeParams_eq (selector : EniSelector) (status : Option String) :
    describeParams selector status =
      [("Action", "DescribeNetworkInterfaces"), ("Version", "2016-11-15")] ++
        selector.ids.map (fun id => ("NetworkInterfaceId.1", id)) ++
        members "Filter" filterEntries 1 (selector.filters ++ statusFilters status) := by
  rw [describeParams, selectorParams_eq, members_append]
  cases status with
  | none => simp [statusFilters, members]
  | some s => simp [statusFilters, members, filterParams_eq]

theorem append_toString_inj {pre : String} {m n : ℕ} (h : pre ++ toString m = pre ++ toString n) :
    m = n := by
  have hlist := congrArg String.toList h
  rw [String.toList_append, String.toList_append, List.append_cancel_left_eq] at hlist
  exact digits_injective (by simpa using hlist)

theorem head_memberName (n : ℕ) (field : String) :
    (memberName "Filter" n field).toList.head? = some 'F' := by
  rw [toList_memberName]
  rfl

/-- The filters of a request are found under their numbers. -/
theorem lookup_filter (selector : EniSelector) (status : Option String) (i : ℕ) (field : String) :
    (describeParams selector status).lookup (memberName "Filter" (1 + i) field) =
      (selector.filters ++ statusFilters status)[i]?.bind fun filter =>
        (filterEntries filter).lookup field := by
  have hne : ∀ key : String, key.toList.head? ≠ some 'F' →
      memberName "Filter" (1 + i) field ≠ key :=
    fun key hkey h => hkey (h ▸ head_memberName (1 + i) field)
  have hids : ∀ ids : List String, (ids.map fun id => ("NetworkInterfaceId.1", id)).lookup
      (memberName "Filter" (1 + i) field) = none := by
    intro ids
    rw [List.lookup_eq_none_iff]
    intro entry hentry
    obtain ⟨id, -, rfl⟩ := List.mem_map.mp hentry
    exact bne_iff_ne.mpr (hne "NetworkInterfaceId.1" (by decide))
  rw [describeParams_eq, List.lookup_append, List.lookup_append, hids, Option.or_none,
    lookup_members]
  have hhead : [("Action", "DescribeNetworkInterfaces"), ("Version", "2016-11-15")].lookup
      (memberName "Filter" (1 + i) field) = none := by
    rw [List.lookup_eq_none_iff]
    simp [hne "Action" (by decide), hne "Version" (by decide)]
  rw [hhead, Option.none_or]

theorem length_filters_le (selector : EniSelector) (status : Option String) :
    (selector.filters ++ statusFilters status).length ≤
      (describeParams selector status).length := by
  have hentries : ∀ filter, filterEntries filter ≠ [] := fun _ => by simp [filterEntries]
  have hmembers := length_members_le hentries "Filter" 1 (selector.filters ++ statusFilters status)
  rw [describeParams_eq]
  exact hmembers.trans (List.suffix_append _ _).length_le

/-- EC2 reads the filters that the selector and the status stand for, one value each. -/
theorem readFilters_describeParams (selector : EniSelector) (status : Option String) :
    readFilters (describeParams selector status) =
      (selector.filters ++ statusFilters status).map fun filter => (filter.1, [filter.2]) := by
  refine numbered_eq (fun i => ?_) (by simpa using length_filters_le selector status)
  have hvalues : ∀ filter, (selector.filters ++ statusFilters status)[i]? = some filter →
      numbered (fun m => (describeParams selector status).lookup
        (memberName "Filter" (1 + i) ("Value." ++ toString m)))
        (describeParams selector status).length 1 = [filter.2] := by
    intro filter hfilter
    refine numbered_eq (fun j => ?_) (by simp [describeParams_eq])
    rw [lookup_filter, hfilter]
    cases j with
    | zero => rfl
    | succ j =>
      have hvalue : "Value." ++ toString (1 + (j + 1)) ≠ "Value.1" := fun h =>
        absurd (append_toString_inj (n := 1) h) (by omega)
      have hname : "Value." ++ toString (1 + (j + 1)) ≠ "Name" := fun h => by
        simpa using congrArg (fun s => s.toList.head?) h
      rw [Option.bind_some, List.getElem?_cons_succ, List.getElem?_nil, List.lookup_eq_none_iff]
      generalize "Value." ++ toString (1 + (j + 1)) = key at hvalue hname ⊢
      simp [filterEntries, hvalue, hname]
  rw [List.getElem?_map]
  cases hfilter : (selector.filters ++ statusFilters status)[i]? with
  | none => simp [lookup_filter, hfilter]
  | some filter =>
    have hname : (describeParams selector status).lookup (memberName "Filter" (1 + i) "Name") =
        some filter.1 := by
      rw [lookup_filter, hfilter]
      rfl
    simp only [hname, hvalues filter hfilter]
    rfl

/-- EC2 reads the id that the selector names, if any. -/
theorem readIds_describeParams (selector : EniSelector) (status : Option String) :
    readIds (describeParams selector status) = selector.ids := by
  have hmembers : ∀ n : ℕ, (members "Filter" filterEntries 1
      (selector.filters ++ statusFilters status)).lookup ("NetworkInterfaceId." ++ toString n) =
        none := fun n => by
    refine lookup_members_of_ne _ _ _ _ fun m field h => ?_
    have hhead := head_memberName m field
    rw [← h, String.toList_append] at hhead
    simp at hhead
  have hread : ∀ n : ℕ,
      (describeParams selector status).lookup ("NetworkInterfaceId." ++ toString n) =
      (selector.ids.map fun id => ("NetworkInterfaceId.1", id)).lookup
        ("NetworkInterfaceId." ++ toString n) := fun n => by
    have hne : ∀ key : String, key.toList.head? ≠ some 'N' →
        "NetworkInterfaceId." ++ toString n ≠ key := fun key hkey h => by
      rw [← h, String.toList_append] at hkey
      simp at hkey
    have hhead : [("Action", "DescribeNetworkInterfaces"), ("Version", "2016-11-15")].lookup
        ("NetworkInterfaceId." ++ toString n) = none := by
      have haction := hne "Action" (by decide)
      have hversion := hne "Version" (by decide)
      rw [List.lookup_eq_none_iff]
      generalize "NetworkInterfaceId." ++ toString n = key at haction hversion ⊢
      simp [haction, hversion]
    rw [describeParams_eq, List.lookup_append, List.lookup_append, hhead, Option.none_or, hmembers,
      Option.or_none]
  refine numbered_eq (fun i => ?_) ?_
  · rw [hread]
    cases selector with
    | name value | description value | tags value | slot value => simp [EniSelector.ids]
    | id value =>
      cases i with
      | zero => rfl
      | succ i =>
        have hne : "NetworkInterfaceId." ++ toString (1 + (i + 1)) ≠ "NetworkInterfaceId.1" :=
          fun h => absurd (append_toString_inj (n := 1) h) (by omega)
        rw [EniSelector.ids, List.getElem?_cons_succ, List.getElem?_nil, List.lookup_eq_none_iff]
        generalize "NetworkInterfaceId." ++ toString (1 + (i + 1)) = key at hne ⊢
        simp [hne]
  · cases selector <;> simp [EniSelector.ids, describeParams_eq]

end Wire

section Selection

variable {σ : Type} {ec2 : Ec2 σ} {region instance_id : String}
  (hec2 : ec2.Documented region instance_id) (e : Eni)

include hec2

theorem passes_filters {selector : EniSelector} (h : selector.Plainly) :
    (∀ filter ∈ selector.filters, ec2.passes e filter.1 [filter.2]) ∧
      (selector.ids = [] ∨ e.id.text ∈ selector.ids) ↔ selector.Selects e := by
  cases selector with
  | id value => simp [EniSelector.filters, EniSelector.ids, EniSelector.Selects]
  | name value =>
    have hlit : Literal value := h ("tag:Name", value) (by simp [EniSelector.filters])
    have htag := hec2.passes_tag e "Name" value hlit
    simpa [EniSelector.filters, EniSelector.ids, EniSelector.Selects] using htag
  | description desc =>
    have hlit : Literal desc := h ("description", desc) (by simp [EniSelector.filters])
    have hdesc := hec2.passes_description e desc hlit
    simpa [EniSelector.filters, EniSelector.ids, EniSelector.Selects] using hdesc
  | slot n =>
    have hlit : Literal (toString n) :=
      h ("tag:aeroftp-slot", toString n) (by simp [EniSelector.filters])
    have htag := hec2.passes_tag e "aeroftp-slot" (toString n) hlit
    simpa [EniSelector.filters, EniSelector.ids, EniSelector.Selects] using htag
  | tags pairs =>
    have hlit : ∀ pair ∈ pairs, Literal pair.2 := fun pair hpair =>
      h ("tag:" ++ pair.1, pair.2) (List.mem_map.mpr ⟨pair, hpair, rfl⟩)
    simp only [EniSelector.filters, EniSelector.ids, EniSelector.Selects, List.forall_mem_map,
      true_or, and_true]
    exact forall₂_congr fun pair hpair => hec2.passes_tag e pair.1 pair.2 (hlit pair hpair)

/-- A request describes the interfaces that the selector names and that have the status. -/
theorem described_describeParams {selector : EniSelector} (h : selector.Plainly)
    {status : Option String} (hstatus : ∀ st ∈ status, Literal st) (s : σ) :
    ec2.Described s (describeParams selector status) e ↔ ec2.Wanted s selector status e := by
  have hshown : (∀ filter ∈ statusFilters status, ec2.passes e filter.1 [filter.2]) ↔
      ∀ st ∈ status, e.status.text = st := by
    cases status with
    | none => simp [statusFilters]
    | some st => simpa [statusFilters] using hec2.passes_status e st (hstatus st rfl)
  rw [Ec2.Described, Ec2.Wanted, readIds_describeParams, readFilters_describeParams,
    List.forall_mem_map, List.forall_mem_append, hshown, ← passes_filters hec2 e h]
  exact ⟨fun ⟨hhas, hids, hfilters, hst⟩ => ⟨hhas, ⟨hfilters, hids⟩, hst⟩,
    fun ⟨hhas, ⟨hfilters, hids⟩, hst⟩ => ⟨hhas, hids, hfilters, hst⟩⟩

/-- A poll describes the interface of its id. -/
theorem described_pollParams (eni_id : String) (s : σ) :
    ec2.Described s (pollParams eni_id) e ↔ ec2.Has s e ∧ e.id.text = eni_id := by
  have hparams : pollParams eni_id = describeParams (.id eni_id) none := rfl
  rw [hparams, described_describeParams hec2 e
    (by simp [EniSelector.Plainly, EniSelector.filters]) (by simp)]
  simp [Ec2.Wanted, EniSelector.Selects]

end Selection

section Answers

theorem scalar_tree {n : Name} {ts : List Tree} {p : Plain} {tag : String}
    (htag : tag.toList = n.text) (h : firstAll n ts = some [.text p.data]) :
    scalar (renderAll ts) tag = .ok (some p.text) := by
  rw [scalar, htag, extractScalar_leaf h]
  have hvalue : String.ofList (value p.data) = p.text :=
    (congrArg String.ofList p.trimmed).trans String.ofList_toList
  exact congrArg (fun s => Except.ok (some s)) hvalue

theorem extractBalanced_tree {n : Name} {ts children : List Tree}
    (h : firstAll n ts = some children) :
    extractBalanced (renderAll ts) n.text = .ok (some (renderAll children)) := by
  have hshows := shows_firstAll (n := n) ts
  rw [h] at hshows
  obtain ⟨u, v, hsplit, hu⟩ := hshows
  rw [hsplit]
  exact extractBalanced_eq_some n.lt_not_mem n.gt_not_mem hu (balanced_renderAll n children)

namespace Shown

variable {children : List Tree} {e : Eni} (h : Shown children e)

include h

theorem scalar_id : scalar (renderAll children) "networkInterfaceId" = .ok (some e.id.text) :=
  scalar_tree (n := Names.networkInterfaceId) rfl h.id

theorem scalar_status : scalar (renderAll children) "status" = .ok (some e.status.text) :=
  scalar_tree (n := Names.status) rfl h.status

theorem scalar_private_ip :
    scalar (renderAll children) "privateIpAddress" = .ok (some e.private_ip.text) :=
  scalar_tree (n := Names.privateIpAddress) rfl h.private_ip

theorem attachmentOf_eq (hused : e.status.text = "in-use") : ∃ a, e.attachment = some a ∧
    attachmentOf (renderAll children) = .ok (some a.id.text) := by
  obtain ⟨a, block, ha, hblock, hid⟩ := h.attachment hused
  have hcut := extractBalanced_tree hblock
  have hscalar : scalar (renderAll block) "attachmentId" = .ok (some a.id.text) :=
    scalar_tree (n := Names.attachmentId) rfl hid
  have htext : Names.attachment.text = "attachment".toList := rfl
  rw [htext] at hcut
  refine ⟨a, ha, ?_⟩
  rw [attachmentOf, hcut]
  exact hscalar

end Shown

/-- The first item of an answer shows the first interface. -/
theorem Lists.firstItem {xml : List Char} {listed : List Eni} (h : Lists xml listed) :
    listed = [] ∧ Plug.firstItem xml = .ok none ∨ ∃ e enis children, listed = e :: enis ∧
      Plug.firstItem xml = .ok (some (renderAll children)) ∧ Shown children e := by
  cases h with
  | nil h => exact .inl ⟨rfl, extractBalanced_eq_none h⟩
  | @cons doc e enis h =>
    obtain ⟨⟨gap, children⟩, rest, hshown, -, hdoc⟩ := List.forall₂_cons_right_iff.mp h
    exact .inr ⟨e, enis, children, rfl, doc.first hdoc, hshown⟩

end Answers

section Account

def plainText (text : String) (h : '<' ∉ text.toList ∧ Text.trim text.toList = text.toList) :
    Plain := ⟨text, h.1, h.2⟩

/-- An account with one interface: its attachment, when it is free at the earliest, the time, and
the files of the instance. -/
structure Account where
  attachment : Option Attachment
  ready : ℕ
  time : ℕ
  files : String → Option String

namespace Account

def status (s : Account) : Plain :=
  if s.attachment.isSome then plainText "in-use" (by decide)
  else if s.ready ≤ s.time then plainText "available" (by decide)
  else plainText "detaching" (by decide)

def eni (s : Account) : Eni where
  id := plainText "eni-0" (by decide)
  description := ""
  tags := [("aeroftp-slot", "0")]
  private_ip := plainText "10.0.0.7" (by decide)
  status := s.status
  attachment := s.attachment

def passes (e : Eni) (name : String) (values : List String) : Bool :=
  (name = "description" ∧ e.description ∈ values) ∨ (name = "status" ∧ e.status.text ∈ values) ∨
    ∃ tag ∈ e.tags, name = "tag:" ++ tag.1 ∧ tag.2 ∈ values

def described (s : Account) (params : Params) : Bool :=
  (readIds params = [] ∨ "eni-0" ∈ readIds params) ∧
    ∀ filter ∈ readFilters params, passes s.eni filter.1 filter.2 = true

/-- The item of the interface. -/
def item (s : Account) : List Tree :=
  [.element Names.networkInterfaceId [.text s.eni.id.data],
    .element Names.status [.text s.eni.status.data],
    .element Names.privateIpAddress [.text s.eni.private_ip.data]] ++
  match s.attachment with
  | some a => [.element Names.attachment [.element Names.attachmentId [.text a.id.data],
      .element Names.status [.text (plainText "attached" (by decide)).data]]]
  | none => []

theorem shown_item (s : Account) : Shown s.item s.eni where
  id := by cases h : s.attachment <;> simp only [item, h] <;> rfl
  status := by cases h : s.attachment <;> simp only [item, h] <;> rfl
  private_ip := by cases h : s.attachment <;> simp only [item, h] <;> rfl
  attachment hused := by
    cases h : s.attachment with
    | none =>
      have hstatus : s.eni.status = s.status := rfl
      rw [hstatus, status, h] at hused
      simp [plainText] at hused
      split at hused <;> simp at hused
    | some a => exact ⟨a, _, h, by simp only [item, h]; rfl, rfl⟩

theorem no_set_before : ¬ setName.start.word <:+: "<DescribeNetworkInterfacesResponse>".toList := by
  decide +kernel

theorem no_item_before :
    ¬ itemName.start.word <:+: "<DescribeNetworkInterfacesResponse>".toList := by decide +kernel

/-- The answer that lists no interface. -/
def noneFound : List Char :=
  "<DescribeNetworkInterfacesResponse><networkInterfaceSet/>".toList ++
    "</DescribeNetworkInterfacesResponse>".toList

def detached : List Char :=
  "<DetachNetworkInterfaceResponse><return>true</return></DetachNetworkInterfaceResponse>".toList

def attached : List Char :=
  "<AttachNetworkInterfaceResponse><attachmentId>eni-attach-1</attachmentId>".toList ++
    "</AttachNetworkInterfaceResponse>".toList

theorem no_item_noneFound : ¬ itemName.start.word <:+: noneFound := by decide +kernel

theorem scalar_detached : scalar detached "return" = .ok (some "true") := by decide +kernel

theorem scalar_attached : scalar attached "attachmentId" = .ok (some "eni-attach-1") := by
  decide +kernel

def document (s : Account) : EniDocument where
  before := "<DescribeNetworkInterfacesResponse>".toList
  before_set := no_set_before
  before_item := no_item_before
  enis := [(noText, s.item)]
  tail := noText
  after := "</DescribeNetworkInterfacesResponse>".toList

def query (s : Account) (params : Params) : Except (List String) (List Char) × Account :=
  let later := { s with time := s.time + 5 }
  match MoveRequest.read params with
  | none =>
    (.ok (if s.described params then s.document.text else noneFound), later)
  | some (.attach eni_id instance_id device_index) =>
    if eni_id = "eni-0" ∧ s.status.text = "available" then
      (.ok attached, { later with
        attachment := some ⟨plainText "eni-attach-1" (by decide), instance_id, device_index⟩ })
    else (.error ["InvalidParameterValue"], later)
  | some (.detach attachment_id) =>
    if ∃ a ∈ s.attachment, a.id.text = attachment_id then
      (.ok detached, { later with
        attachment := none, ready := s.time + 3000 })
    else (.error ["InvalidAttachmentID.NotFound"], later)

def serve : (op : PlugOp) → Account → op.Reply × Account
  | .fetchImdsInstanceId, s => (.ok "i-1", { s with time := s.time + 5 })
  | .fetchImdsCredentials, s => (.ok ⟨"k", "s", none⟩, { s with time := s.time + 5 })
  | .awsQuery _ _ _ _ params, s => s.query params
  | .now, s => (s.time, { s with time := s.time + 5 })
  | .sleep ms, s => ((), { s with time := s.time + 5 + ms })
  | .createDirAll _, s => (.ok (), { s with time := s.time + 5 })
  | .write path contents, s =>
    (.ok (), { s with time := s.time + 5, files := Function.update s.files path (some contents) })

theorem eni_id (s : Account) (id : String) (e : Eni)
    (h : (if id = "eni-0" then some s.eni else none) = some e) : e.id.text = id := by
  obtain ⟨rfl, he⟩ := Option.ite_none_right_eq_some.mp h
  rw [← Option.some.inj he]
  rfl

end Account

/-- An EC2 with this one interface, which is available three seconds after a detachment. -/
def smallEc2 : Ec2 Account where
  serve := Account.serve
  eni s id := if id = "eni-0" then some s.eni else none
  eni_id := Account.eni_id
  passes e name values := Account.passes e name values = true
  time := Account.time
  file := Account.files

namespace Account

variable {s : Account} {id : String}

theorem held_eq : smallEc2.held s id = if id = "eni-0" then s.attachment else none := by
  by_cases h : id = "eni-0" <;> simp [Ec2.held, smallEc2, h, eni]

theorem available_iff : smallEc2.Available s id ↔
    id = "eni-0" ∧ s.attachment = none ∧ s.ready ≤ s.time := by
  have hstatus : s.status.text = "available" ↔ s.attachment = none ∧ s.ready ≤ s.time := by
    rw [status]
    cases s.attachment with
    | none => by_cases h : s.ready ≤ s.time <;> simp [plainText, h]
    | some a => simp [plainText]
  by_cases h : id = "eni-0" <;> simp [Ec2.Available, smallEc2, h, eni, hstatus]

theorem query_time (s : Account) (params : Params) : (s.query params).2.time = s.time + 5 := by
  unfold query
  cases MoveRequest.read params with
  | none => rfl
  | some request =>
    cases request with
    | attach eni_id instance_id device_index => simp only; split <;> rfl
    | detach attachment_id => simp only; split <;> rfl

theorem serve_time (op : PlugOp) (s : Account) : s.time ≤ (serve op s).2.time := by
  cases op with
  | awsQuery host service region creds params =>
    exact (s.query_time params).symm ▸ Nat.le_add_right ..
  | sleep ms => exact Nat.le_add_right_of_le (Nat.le_add_right ..)
  | fetchImdsInstanceId | fetchImdsCredentials | now | createDirAll dir
  | write path contents => exact Nat.le_add_right ..

/-- An operation leaves the interface where it is, or it is a request for it. -/
theorem serve_cases (op : PlugOp) (s : Account) :
    (serve op s).2.attachment = s.attachment ∧ (serve op s).2.ready = s.ready ∨
      ∃ request ∈ op.moves, request.IsFor "eni-0" s.attachment := by
  cases op with
  | awsQuery host service region creds params =>
    simp only [serve, query, PlugOp.moves]
    cases hread : MoveRequest.read params with
    | none => exact .inl ⟨rfl, rfl⟩
    | some request =>
      cases request with
      | attach eni_id instance_id device_index =>
        simp only
        split
        next h => exact .inr ⟨_, rfl, h.1⟩
        next => exact .inl ⟨rfl, rfl⟩
      | detach attachment_id =>
        simp only
        split
        next h => exact .inr ⟨_, rfl, h⟩
        next => exact .inl ⟨rfl, rfl⟩
  | fetchImdsInstanceId | fetchImdsCredentials | now | sleep ms | createDirAll dir
  | write path contents => exact .inl ⟨rfl, rfl⟩

theorem leftAlone (id : String) : smallEc2.LeftAlone id where
  stays op s h := by
    by_cases hid : id = "eni-0" <;> simp_all [smallEc2]
  keeps op s hmoves := by
    by_cases hid : id = "eni-0"
    · obtain ⟨hattachment, hready⟩ := (serve_cases op s).resolve_right fun ⟨request, hop, hfor⟩ =>
        hmoves request hop (by rwa [held_eq, if_pos hid, hid])
      have hserve : smallEc2.serve op s = serve op s := rfl
      rw [held_eq, held_eq, available_iff, available_iff, hserve, hattachment, hready]
      exact ⟨rfl, fun ⟨_, hnone, hle⟩ => ⟨hid, hnone, hle.trans (serve_time op s)⟩⟩
    · simp [held_eq, available_iff, hid]

theorem passes_iff (e : Eni) (name value : String) : smallEc2.passes e name [value] ↔
    (name = "description" ∧ e.description = value) ∨ (name = "status" ∧ e.status.text = value) ∨
      ∃ tag ∈ e.tags, name = "tag:" ++ tag.1 ∧ tag.2 = value := by
  simp [smallEc2, passes]

theorem tag_ne (key : String) : "tag:" ++ key ≠ "description" ∧ "tag:" ++ key ≠ "status" := by
  constructor <;> intro heq
  · simpa using congrArg (fun s => s.toList.head?) heq
  · simpa using congrArg (fun s => s.toList.head?) heq

theorem has_iff {e : Eni} : smallEc2.Has s e ↔ e = s.eni := by
  simp only [Ec2.Has, smallEc2, Option.ite_none_right_eq_some, Option.some.injEq]
  exact ⟨fun h => h.2.symm, fun h => by rw [h]; exact ⟨rfl, rfl⟩⟩

theorem lists (s : Account) (params : Params) : ∃ listed,
    Lists (if s.described params then s.document.text else noneFound) listed ∧
      ∀ e, e ∈ listed ↔ smallEc2.Described s params e := by
  have hiff : ∀ e, smallEc2.Described s params e ↔ e = s.eni ∧ s.described params = true := by
    intro e
    rw [Ec2.Described, has_iff]
    refine and_congr_right fun he => ?_
    rw [he]
    simp only [described, decide_eq_true_eq]
    rfl
  by_cases h : s.described params = true
  · refine ⟨[s.eni], ?_, fun e => by simp [hiff, h]⟩
    rw [if_pos h]
    exact .cons s.document (.cons s.shown_item .nil)
  · refine ⟨[], ?_, fun e => by simp [hiff, h]⟩
    rw [if_neg h]
    exact .nil no_item_noneFound

section Queries

variable {params : Params}

theorem query_none (h : MoveRequest.read params = none) : s.query params =
    (.ok (if s.described params then s.document.text else noneFound),
      { s with time := s.time + 5 }) := by
  simp only [query, h]

theorem query_attach {to_id index : String}
    (h : MoveRequest.read params = some (.attach id to_id index)) : s.query params =
      if id = "eni-0" ∧ s.status.text = "available" then
        (.ok attached, { s with
          time := s.time + 5
          attachment := some ⟨plainText "eni-attach-1" (by decide), to_id, index⟩ })
      else (.error ["InvalidParameterValue"], { s with time := s.time + 5 }) := by
  simp only [query, h]

theorem query_detach {a : Attachment} (ha : s.attachment = some a)
    (h : MoveRequest.read params = some (.detach a.id.text)) : s.query params =
      (.ok detached, { s with
        time := s.time + 5, attachment := none, ready := s.time + 3000 }) := by
  simp only [query, h]
  exact if_pos ⟨a, ha, rfl⟩

theorem eq_of_held {a : Attachment} (h : smallEc2.held s id = some a) :
    id = "eni-0" ∧ s.attachment = some a := by
  rw [held_eq] at h
  exact Option.ite_none_right_eq_some.mp h

end Queries

theorem documented (region : String) : smallEc2.Documented region "i-1" where
  passes_description e value _ := by
    have hne := fun key => (tag_ne key).1.symm
    simp [passes_iff, hne]
  passes_status e value _ := by
    have hne := fun key => (tag_ne key).2.symm
    simp [passes_iff, hne]
  passes_tag e key value _ := by
    rw [passes_iff]
    constructor
    · rintro (⟨hname, -⟩ | ⟨hname, -⟩ | ⟨tag, htag, hname, rfl⟩)
      · exact absurd hname (tag_ne key).1
      · exact absurd hname (tag_ne key).2
      · obtain rfl : key = tag.1 := by simpa [← String.toList_inj] using hname
        exact htag
    · exact fun htag => .inr (.inr ⟨_, htag, rfl, rfl⟩)
  describes creds params s xml haction hxml := by
    have hquery := s.query_none (moves_of_describes region creds haction)
    obtain rfl := Except.ok.inj ((congrArg Prod.fst hquery).symm.trans hxml)
    exact s.lists params
  attaches creds params s eni_id to_id index hread := by
    have hserve : smallEc2.serve (ec2Op region creds params) s = _ := query_attach hread
    rw [hserve]
    split
    next h =>
      refine .inl ⟨?_, ?_⟩
      · rintro ⟨other, hne, a, ha, -⟩
        exact hne ((eq_of_held ha).1.trans h.1.symm)
      · exact ⟨_, held_eq.trans (if_pos h.1), rfl, rfl⟩
    next h =>
      refine .inr ⟨?_, by rw [held_eq, held_eq]⟩
      rintro ⟨xml, id, hxml, -⟩
      cases hxml
  detaches creds params s eni_id a hheld hread := by
    have hserve : smallEc2.serve (ec2Op region creds params) s = _ :=
      query_detach (eq_of_held hheld).2 hread
    rw [hserve]
    exact .inl (held_eq.trans (ite_self _))
  attachment_unique s eni_id other a hheld b hb _ :=
    (eq_of_held hb).1.trans (eq_of_held hheld).1.symm
  imds s id h := (Except.ok.inj h).symm
  writes s path contents _ := Function.update_self ..

theorem willing (region : String) : smallEc2.Willing region where
  alone := leftAlone
  identifies _ := ⟨rfl, rfl⟩
  describes creds params s haction _ := by
    have hserve : smallEc2.serve (ec2Op region creds params) s = _ :=
      query_none (moves_of_describes region creds haction)
    rw [hserve]
    rfl
  attaches creds params s eni_id to_id index hread havailable _ := by
    obtain ⟨rfl, -⟩ := available_iff.mp havailable
    have hstatus : s.status.text = "available" := by
      obtain ⟨e, he, hstatus⟩ := havailable
      obtain rfl : s.eni = e := by simpa [smallEc2] using he
      exact hstatus
    have hserve : smallEc2.serve (ec2Op region creds params) s = _ :=
      (query_attach hread).trans (if_pos ⟨rfl, hstatus⟩)
    rw [hserve]
    exact ⟨_, _, rfl, scalar_attached⟩
  detaches creds params s eni_id a hheld hread := by
    have hserve : smallEc2.serve (ec2Op region creds params) s = _ :=
      query_detach (eq_of_held hheld).2 hread
    rw [hserve]
    exact ⟨_, rfl, scalar_detached⟩
  stores _ := ⟨fun _ => rfl, fun _ _ => rfl⟩

/-- A state that was reached while nobody moved the interface. -/
theorem idles_iff {s' : Account} (h : smallEc2.Idles s s') : s.time ≤ s'.time ∧
    s'.attachment = s.attachment ∧ s'.ready = s.ready := by
  induction h with
  | refl => exact ⟨le_rfl, rfl, rfl⟩
  | tail _ hstep ih =>
    obtain ⟨op, hop, rfl⟩ := hstep
    obtain ⟨hattachment, hready⟩ := (serve_cases op _).resolve_right (by simp [hop])
    exact ⟨ih.1.trans (serve_time op _), hattachment.trans ih.2.1, hready.trans ih.2.2⟩

theorem prompt : smallEc2.Prompt 5 3000 where
  time_le := serve_time
  latency op s hop := by
    cases op with
    | awsQuery host service region creds params => exact (s.query_time params).le
    | sleep ms => exact absurd rfl (hop ms)
    | fetchImdsInstanceId | fetchImdsCredentials | now | createDirAll dir
    | write path contents => exact le_rfl
  sleeps ms s := Nat.add_le_add_right (Nat.le_add_right ..) ms
  reads s := ⟨le_rfl, Nat.le_add_right ..⟩
  frees op s s' eni_id a _ hheld hop _ hidle htime := by
    obtain ⟨rfl, ha⟩ := eq_of_held hheld
    obtain ⟨htime', hattachment, hready⟩ := idles_iff hidle
    cases op with
    | awsQuery host service region creds params =>
      have hserve : smallEc2.serve (.awsQuery host service region creds params) s = _ :=
        query_detach ha hop
      rw [hserve] at htime hattachment hready
      refine available_iff.mpr ⟨rfl, hattachment, ?_⟩
      rw [hready]
      exact le_trans (by simp [smallEc2]) htime
    | _ => cases hop

theorem selects (s : Account) : (EniSelector.slot 0).Selects s.eni := List.mem_singleton.mpr rfl

theorem not_occupied (to_id index : String) : ¬ smallEc2.Occupied s "eni-0" to_id index := by
  rintro ⟨other, hne, a, ha, -⟩
  exact hne (eq_of_held ha).1

end Account

end Account

end Aerosuite.Plug
