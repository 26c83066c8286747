import Aerosuite.Library.Nesting
import Aerosuite.Library.Rely
import Aerosuite.Pulse.Node

/-! The virtual addresses of the load balancer.  The node that becomes master runs a script that
claims both addresses with `aeroplug ip`, and the scripts of several nodes may overlap. -/

namespace Aerosuite.Pulse.Node

open Program Text Nesting
open Aws (Checked extractScalar)
open Plug (AwsCredentials Failure)

section AssignIp

/-- The options of `aeroplug ip`.  Without `assign` the address is unassigned. -/
structure IpArgs where
  ip : String
  eni : Option String
  assign : Bool
  allow_reassignment : Bool
  region : String

def fetchImdsCredentials : NodeProgram AwsCredentials := do
  match ← nodeCall .fetchImdsCredentials with
  | .ok creds => pure creds
  | .error chain => throw (.error chain)

def awsQuery (host service region : String) (creds : AwsCredentials)
    (params : List (String × String)) : NodeProgram (List Char) := do
  match ← nodeCall (.awsQuery host service region creds params) with
  | .ok xml => pure xml
  | .error chain => throw (.error chain)

def checked {α : Type} : Checked α → NodeProgram α
  | .ok a => pure a
  | .error fault => throw (.panic fault)

def fetchPrimaryEniId : NodeProgram String := do
  let token ← fetchImdsToken
  let mac ← inContext "Failed to fetch primary MAC address from IMDS" (fetchImdsPath token "mac")
  let eni_id ← inContext s!"Failed to fetch ENI ID for MAC {String.ofList mac} from IMDS"
    (fetchImdsPath token (macPath mac "interface-id"))
  pure (String.ofList eni_id)

def assignParams (eni_id ip : String) (allow_reassignment : Bool) : List (String × String) :=
  [("Action", "AssignPrivateIpAddresses"), ("Version", "2016-11-15"),
    ("NetworkInterfaceId", eni_id), ("PrivateIpAddress.1", ip),
    ("AllowReassignment", toString allow_reassignment)]

def unassignParams (eni_id ip : String) : List (String × String) :=
  [("Action", "UnassignPrivateIpAddresses"), ("Version", "2016-11-15"),
    ("NetworkInterfaceId", eni_id), ("PrivateIpAddress.1", ip)]

/-- What both requests make of an answer. -/
def confirmed (action : String) (xml : List Char) : NodeProgram Unit := do
  match ← checked (extractScalar xml "return".toList) with
  | some v =>
    if v = "true".toList then pure ()
    else throw (.error [s!"{action} returned unexpected value: {String.ofList v}"])
  | none => throw (.error [s!"Could not parse {action} response:\n{String.ofList xml}"])

def assignSecondaryIp (region : String) (creds : AwsCredentials) (eni_id ip : String)
    (allow_reassignment : Bool) : NodeProgram Unit := do
  let xml ← awsQuery s!"ec2.{region}.amazonaws.com" "ec2" region creds
    (assignParams eni_id ip allow_reassignment)
  confirmed "AssignPrivateIpAddresses" xml

def unassignSecondaryIp (region : String) (creds : AwsCredentials) (eni_id ip : String) :
    NodeProgram Unit := do
  let xml ← awsQuery s!"ec2.{region}.amazonaws.com" "ec2" region creds (unassignParams eni_id ip)
  confirmed "UnassignPrivateIpAddresses" xml

/-- The interface that a command is for. -/
def eniOf (eni : Option String) : NodeProgram String :=
  match eni with
  | some id => pure id
  | none => fetchPrimaryEniId

/-- `run` of `aeroplug ip`. -/
def runIp (args : IpArgs) : NodeProgram Unit := do
  let creds ← fetchImdsCredentials
  let eni_id ← eniOf args.eni
  if args.assign then
    assignSecondaryIp args.region creds eni_id args.ip args.allow_reassignment
  else unassignSecondaryIp args.region creds eni_id args.ip

end AssignIp

section Script

/-- A claim of the script: the command, and the line that is logged after it.  A line that cannot be
logged ends the script as a failed command does. -/
def claimVip (args : IpArgs) (done failed : String) : Program NodeOp NodeOp.Reply Bool := do
  match ← (runIp args).run with
  | .ok () =>
    if ← nodeCall (.log done) then pure true
    else
      let _ ← nodeCall (.log failed)
      pure false
  | .error _ =>
    let _ ← nodeCall (.log failed)
    pure false

def outsideArgs (region : String) (data : InstanceData) : IpArgs :=
  ⟨String.ofList data.vip_outside, none, true, true, region⟩

def insideArgs (region : String) (data : InstanceData) : IpArgs :=
  ⟨String.ofList data.vip_inside, some (String.ofList data.inside.eni_id), true, true, region⟩

/-- The script that `render_notify_master` writes, and whether it ends with the status 0. -/
def notifyMaster (region : String) (data : InstanceData) : Program NodeOp NodeOp.Reply Bool := do
  let vip_outside := String.ofList data.vip_outside
  let vip_inside := String.ofList data.vip_inside
  if ← nodeCall (.log (s!"Transitioning to MASTER on {String.ofList data.instance_id} " ++
      "\\u2014 claiming VIPs ...")) then
    if ← claimVip (outsideArgs region data) s!"Outside VIP {vip_outside} assigned."
        s!"ERROR: failed to assign outside VIP {vip_outside}" then
      if ← claimVip (insideArgs region data) s!"Inside VIP {vip_inside} assigned."
          s!"ERROR: failed to assign inside VIP {vip_inside}" then
        nodeCall (.log "Both VIPs claimed successfully.")
      else pure false
    else pure false
  else pure false

end Script

section Service

/-- The interface that has an address. -/
abbrev Holders := String → Option String

inductive AddressRequest where
  | assign (eni_id ip : String) (allow_reassignment : Bool)
  | unassign (eni_id ip : String)
  deriving DecidableEq

namespace AddressRequest

/-- The request that the parameters stand for. -/
def read (params : List (String × String)) : Option AddressRequest := do
  let action ← params.lookup "Action"
  let eni_id ← params.lookup "NetworkInterfaceId"
  let ip ← params.lookup "PrivateIpAddress.1"
  if action = "AssignPrivateIpAddresses" then
    pure (.assign eni_id ip (params.lookup "AllowReassignment" = some "true"))
  else if action = "UnassignPrivateIpAddresses" then pure (.unassign eni_id ip)
  else none

/-- EC2 takes an address from another interface only when the request allows it. -/
def Permitted (holders : Holders) : AddressRequest → Prop
  | .assign eni_id ip allow_reassignment =>
    allow_reassignment = true ∨ holders ip = none ∨ holders ip = some eni_id
  | .unassign eni_id ip => holders ip = some eni_id

def apply (holders : Holders) : AddressRequest → Holders
  | .assign eni_id ip _ => Function.update holders ip (some eni_id)
  | .unassign _ ip => Function.update holders ip none

end AddressRequest

/-- The answer says that the request was served. -/
def Confirms (reply : Except (List String) (List Char)) : Prop :=
  ∃ xml, reply = .ok xml ∧ extractScalar xml "return".toList = .ok (some "true".toList)

/-- What EC2 does with a request.  It serves one that is permitted, though its answer may be lost,
or refuses it for reasons of its own.  Other requests leave the addresses where they are. -/
inductive Answers (params : List (String × String)) (holders : Holders)
    (reply : Except (List String) (List Char)) : Holders → Prop
  | served {request : AddressRequest} (hread : AddressRequest.read params = some request)
    (hpermitted : request.Permitted holders) : Answers params holders reply (request.apply holders)
  | refused (h : ¬Confirms reply) : Answers params holders reply holders
  | other (hread : AddressRequest.read params = none) : Answers params holders reply holders

variable {ι : Type}

/-- The environment of the nodes: each has its metadata, and all have one EC2. -/
structure Served (metadata : ι → String → Option (List Char))
    (h : ι → (op : NodeOp) → Holders → op.Reply × Holders) : Prop where
  reads : ∀ i op holders, Reads (metadata i) op (h i op holders).1
  quiet : ∀ i op holders, (∀ host service region creds params,
    op ≠ .awsQuery host service region creds params) → (h i op holders).2 = holders
  answers : ∀ i host service region creds params holders,
    Answers params holders (h i (.awsQuery host service region creds params) holders).1
      (h i (.awsQuery host service region creds params) holders).2

end Service

section Runs

abbrev NodeEvent := Event NodeOp NodeOp.Reply

/-- The request of an event. -/
def requestOf : NodeEvent → Option AddressRequest
  | ⟨.awsQuery _ _ _ _ params, _⟩ => AddressRequest.read params
  | _ => none

/-- A request of EC2 was confirmed. -/
def Confirmed : NodeEvent → Prop
  | ⟨.awsQuery .., reply⟩ => Confirms reply
  | _ => True

def NodeOp.isQuery : NodeOp → Bool
  | .awsQuery .. => true
  | _ => false

variable {metadata : String → Option (List Char)} {t : List NodeEvent}

theorem quiet_of_ops (h : ∀ ev ∈ t, ev.op.isQuery = false) :
    t.filterMap requestOf = [] ∧ ∀ ev ∈ t, Confirmed ev := by
  have hevent : ∀ ev : NodeEvent, ev.op.isQuery = false → requestOf ev = none ∧ Confirmed ev := by
    rintro ⟨op, reply⟩ hop
    cases op with
    | awsQuery host service region creds params => cases hop
    | _ => exact ⟨rfl, trivial⟩
  exact ⟨List.filterMap_eq_nil_iff.mpr fun ev hev => (hevent ev (h ev hev)).1,
    fun ev hev => (hevent ev (h ev hev)).2⟩

theorem read_assignParams (eni_id ip : String) (allow_reassignment : Bool) :
    AddressRequest.read (assignParams eni_id ip allow_reassignment) =
      some (.assign eni_id ip allow_reassignment) := by
  have hflag : (toString allow_reassignment = "true") = (allow_reassignment = true) := by
    cases allow_reassignment <;> decide
  simp [AddressRequest.read, assignParams, List.lookup_cons, hflag]

theorem read_unassignParams (eni_id ip : String) :
    AddressRequest.read (unassignParams eni_id ip) = some (.unassign eni_id ip) := by
  simp [AddressRequest.read, unassignParams, List.lookup_cons]

theorem exec_confirmed {action : String} {xml : List Char}
    (h : Exec (confirmed action xml).run t (.ok ())) :
    t = [] ∧ extractScalar xml "return".toList = .ok (some "true".toList) := by
  unfold confirmed at h
  cases hscalar : extractScalar xml "return".toList with
  | error fault =>
    rw [hscalar] at h
    obtain ⟨_, _, _, -, hthrow, -⟩ := exec_ok_bind.mp h
    exact absurd hthrow exec_ok_throw
  | ok found =>
    rw [hscalar] at h
    obtain ⟨t₁, a, t₂, rfl, hpure, hrest⟩ := exec_ok_bind.mp h
    obtain ⟨rfl, rfl⟩ := exec_ok_pure.mp hpure
    cases a with
    | none => exact absurd hrest exec_ok_throw
    | some v =>
      dsimp only at hrest
      split at hrest
      next hv => exact ⟨(exec_ok_pure.mp hrest).1, by rw [hv]⟩
      next => exact absurd hrest exec_ok_throw

/-- A command succeeds with one request of EC2, which is confirmed. -/
theorem exec_query {host service region action : String} {creds : AwsCredentials}
    {params : List (String × String)} {request : AddressRequest}
    (hread : AddressRequest.read params = some request)
    (h : Exec (awsQuery host service region creds params >>= confirmed action).run t (.ok ())) :
    t.filterMap requestOf = [request] ∧ ∀ ev ∈ t, Confirmed ev := by
  obtain ⟨t₁, xml, t₂, rfl, hquery, hconfirmed⟩ := exec_ok_bind.mp h
  obtain ⟨rfl, hreturn⟩ := exec_confirmed hconfirmed
  obtain ⟨t₃, reply, t₄, rfl, hcall, hreply⟩ := exec_ok_bind.mp hquery
  obtain rfl := exec_perform.mp (exec_ok_lift.mp hcall)
  cases reply with
  | error chain => exact absurd hreply exec_ok_throw
  | ok answer =>
    obtain ⟨rfl, rfl⟩ := exec_ok_pure.mp hreply
    refine ⟨by simp [requestOf, hread], fun ev hev => ?_⟩
    obtain rfl : ev = _ := by simpa using hev
    exact ⟨xml, rfl, hreturn⟩

theorem imdsText_always {P : NodeOp → Prop} (send status read : String) (reply : ImdsReply) :
    (imdsText send status read reply).run.Always P := by
  cases reply <;> trivial

theorem fetchImdsToken_always : fetchImdsToken.run.Always fun op => op.isQuery = false :=
  ⟨rfl, fun reply => imdsText_always _ _ _ reply⟩

theorem fetchImdsPath_always (token : List Char) (path : String) :
    (fetchImdsPath token path).run.Always fun op => op.isQuery = false :=
  always_try (always_lift ⟨rfl, fun _ => trivial⟩) fun reply =>
    always_try (imdsText_always _ _ _ reply) fun _ => trivial

theorem fetchImdsCredentials_always :
    fetchImdsCredentials.run.Always fun op => op.isQuery = false := by
  refine always_try (always_lift ⟨rfl, fun _ => trivial⟩) fun reply => ?_
  cases reply <;> trivial

theorem eniOf_always (eni : Option String) :
    (eniOf eni).run.Always fun op => op.isQuery = false := by
  cases eni with
  | some id => trivial
  | none =>
    refine always_try fetchImdsToken_always fun token => ?_
    refine always_try (always_adapt _ (fetchImdsPath_always _ _)) fun mac => ?_
    exact always_try (always_adapt _ (fetchImdsPath_always _ _)) fun _ => trivial

/-- The interface that is meant: the one that is named, or else the primary one. -/
def Meant (metadata : String → Option (List Char)) (eni : Option String) (eni_id : String) :
    Prop :=
  match eni with
  | some id => eni_id = id
  | none => ∃ mac id, value metadata "mac" = some mac ∧
    value metadata (macPath mac "interface-id") = some id ∧ eni_id = String.ofList id

theorem yields_eniOf (eni : Option String) :
    Yields (Reads metadata) (Meant metadata eni) (eniOf eni) := by
  cases eni with
  | some id => exact yields_pure rfl
  | none =>
    refine yields_fetchImdsToken.bind fun token _ => ?_
    refine ((yields_fetchImdsPath _).adapt _).bind fun mac hmac => ?_
    refine ((yields_fetchImdsPath _).adapt _).bind fun id hid => yields_pure ?_
    exact ⟨mac, id, hmac, hid, rfl⟩

def IpArgs.request (args : IpArgs) (eni_id : String) : AddressRequest :=
  if args.assign then .assign eni_id args.ip args.allow_reassignment else .unassign eni_id args.ip

/-- A command that has succeeded has made one request, which was confirmed. -/
theorem exec_runIp {args : IpArgs} (h : Exec (runIp args).run t (.ok ()))
    (hreads : ∀ ev ∈ t, Reads metadata ev.op ev.reply) :
    ∃ eni_id, Meant metadata args.eni eni_id ∧ t.filterMap requestOf = [args.request eni_id] ∧
      ∀ ev ∈ t, Confirmed ev := by
  obtain ⟨t₁, creds, t₂, rfl, hcreds, hrest⟩ := exec_ok_bind.mp h
  obtain ⟨t₃, eni_id, t₄, rfl, heni, hrequest⟩ := exec_ok_bind.mp hrest
  obtain ⟨hnone₁, hconfirmed₁⟩ := quiet_of_ops (fetchImdsCredentials_always.exec hcreds)
  obtain ⟨hnone₃, hconfirmed₃⟩ := quiet_of_ops ((eniOf_always args.eni).exec heni)
  have hone : t₄.filterMap requestOf = [args.request eni_id] ∧ ∀ ev ∈ t₄, Confirmed ev := by
    unfold IpArgs.request
    split at hrequest
    next hassign =>
      rw [if_pos hassign]
      exact exec_query (read_assignParams _ _ _) hrequest
    next hunassign =>
      rw [if_neg hunassign]
      exact exec_query (read_unassignParams _ _) hrequest
  obtain ⟨-, hreads⟩ := List.forall_mem_append.mp hreads
  obtain ⟨hreads₃, -⟩ := List.forall_mem_append.mp hreads
  refine ⟨eni_id, yields_eniOf args.eni t₃ eni_id heni hreads₃, ?_, ?_⟩
  · rw [List.filterMap_append, List.filterMap_append, hnone₁, hnone₃, hone.1]
    rfl
  · exact List.forall_mem_append.mpr ⟨hconfirmed₁,
      List.forall_mem_append.mpr ⟨hconfirmed₃, hone.2⟩⟩

/-- A script goes on after a command that has succeeded. -/
theorem exec_and {p q : Program NodeOp NodeOp.Reply Bool}
    (h : Exec (p >>= fun succeeded => if succeeded then q else pure false) t true) :
    ∃ t₁ t₂, t = t₁ ++ t₂ ∧ Exec p t₁ true ∧ Exec q t₂ true := by
  obtain ⟨t₁, succeeded, t₂, rfl, hp, hq⟩ := exec_bind.mp h
  cases succeeded with
  | false => cases (exec_ret.mp hq).2
  | true => exact ⟨t₁, t₂, rfl, hp, hq⟩

theorem exec_log {message : String} {logged : Bool} (h : Exec (nodeCall (.log message)) t logged) :
    t.filterMap requestOf = [] ∧ ∀ ev ∈ t, Confirmed ev := by
  rw [exec_perform.mp h]
  exact quiet_of_ops (by simp [NodeOp.isQuery])

theorem exec_claimVip {args : IpArgs} {done failed : String}
    (h : Exec (claimVip args done failed) t true) :
    ∃ t₁ t₂, t = t₁ ++ t₂ ∧ Exec (runIp args).run t₁ (.ok ()) ∧ t₂.filterMap requestOf = [] ∧
      ∀ ev ∈ t₂, Confirmed ev := by
  obtain ⟨t₁, result, t₂, rfl, hrun, hrest⟩ := exec_bind.mp h
  cases result with
  | error e =>
    obtain ⟨_, _, -, hfalse⟩ := exec_call.mp hrest
    cases (exec_ret.mp hfalse).2
  | ok _ =>
    obtain ⟨logged, t₃, rfl, hlogged⟩ := exec_call.mp hrest
    cases logged with
    | true =>
      obtain ⟨rfl, -⟩ := exec_ret.mp hlogged
      exact ⟨t₁, _, rfl, hrun, quiet_of_ops (by simp [NodeOp.isQuery])⟩
    | false =>
      obtain ⟨_, _, -, hfalse⟩ := exec_call.mp hlogged
      cases (exec_ret.mp hfalse).2

/-- The script has ended with the status 0 after two requests, which were confirmed. -/
theorem exec_notifyMaster {region : String} {data : InstanceData}
    (h : Exec (notifyMaster region data) t true)
    (hreads : ∀ ev ∈ t, Reads metadata ev.op ev.reply) :
    ∃ eni_id, Meant metadata none eni_id ∧ t.filterMap requestOf =
        [.assign eni_id (String.ofList data.vip_outside) true,
          .assign (String.ofList data.inside.eni_id) (String.ofList data.vip_inside) true] ∧
      ∀ ev ∈ t, Confirmed ev := by
  obtain ⟨t₁, t₂, rfl, hlog, hrest⟩ := exec_and h
  obtain ⟨t₃, t₄, rfl, houtside, hrest⟩ := exec_and hrest
  obtain ⟨t₅, t₆, rfl, hinside, hlast⟩ := exec_and hrest
  obtain ⟨u₁, u₂, rfl, hrun, hnone₂, hconfirmed₂⟩ := exec_claimVip houtside
  obtain ⟨u₃, u₄, rfl, hrun', hnone₄, hconfirmed₄⟩ := exec_claimVip hinside
  obtain ⟨hnone, hconfirmed⟩ := exec_log hlog
  obtain ⟨hnone', hconfirmed'⟩ := exec_log hlast
  simp only [List.forall_mem_append] at hreads
  obtain ⟨eni_id, hmeant, hone, hconfirmed₁⟩ := exec_runIp hrun hreads.2.1.1
  obtain ⟨_, rfl, hone', hconfirmed₃⟩ := exec_runIp hrun' hreads.2.2.1.1
  refine ⟨eni_id, hmeant, ?_, ?_⟩
  · simp only [List.filterMap_append, hnone, hone, hnone₂, hone', hnone₄, hnone']
    rfl
  · simp only [List.forall_mem_append]
    exact ⟨hconfirmed, ⟨hconfirmed₁, hconfirmed₂⟩, ⟨hconfirmed₃, hconfirmed₄⟩, hconfirmed'⟩

end Runs

section Interleavings

abbrev NodeStep (ι : Type) := Step ι NodeOp NodeOp.Reply Holders

variable {ι : Type}

section Marks

variable (out inn : String)

/-- The claim of the outside address begins a run of the script, that of the inside one ends it. -/
def markOf (i : ι) : AddressRequest → Option (Mark ι)
  | .assign _ ip _ =>
    if ip = out then some (.begins i) else if ip = inn then some (.ends i) else none
  | .unassign .. => none

def markOfStep (st : NodeStep ι) : Option (Mark ι) :=
  (requestOf st.event).bind (markOf out inn st.who)

/-- The claims of a history, newest first. -/
def marks (hist : List (NodeStep ι)) : List (Mark ι) := hist.filterMap (markOfStep out inn)

end Marks

variable {out inn : String} {hist : List (NodeStep ι)} {st : NodeStep ι}

theorem run_markOfStep {m : Mark ι} (h : markOfStep out inn st = some m) : m.run = st.who := by
  obtain ⟨request, -, hm⟩ := Option.bind_eq_some_iff.mp h
  cases request with
  | unassign eni_id ip => cases hm
  | assign eni_id ip allow_reassignment =>
    simp only [markOf] at hm
    split at hm
    next => exact Option.some.inj hm ▸ rfl
    next =>
      split at hm
      next => exact Option.some.inj hm ▸ rfl
      next => cases hm

theorem marks_cons_none (h : requestOf st.event = none) :
    marks out inn (st :: hist) = marks out inn hist :=
  List.filterMap_cons_none (by rw [markOfStep, h, Option.bind_none])

theorem marks_cons_some {request : AddressRequest} {m : Mark ι}
    (h : requestOf st.event = some request) (hm : markOf out inn st.who request = some m) :
    marks out inn (st :: hist) = m :: marks out inn hist :=
  List.filterMap_cons_some (by rw [markOfStep, h, Option.bind_some, hm])

variable {metadata : ι → String → Option (List Char)}
  {h : ι → (op : NodeOp) → Holders → op.Reply × Holders}

theorem Answers.of_confirms {params : List (String × String)} {holders after : Holders}
    {reply : Except (List String) (List Char)} (h : Answers params holders reply after)
    (hconfirms : Confirms reply) :
    (AddressRequest.read params = none ∧ after = holders) ∨
      ∃ request, AddressRequest.read params = some request ∧ after = request.apply holders := by
  cases h with
  | other hread => exact .inl ⟨hread, rfl⟩
  | served hread _ => exact .inr ⟨_, hread, rfl⟩
  | refused hrefused => exact absurd hconfirms hrefused

/-- What a step whose request is confirmed does to the addresses. -/
theorem Served.step (hserved : Served metadata h) {i : ι} {op : NodeOp} {holders : Holders}
    (hconfirmed : Confirmed ⟨op, (h i op holders).1⟩) :
    (requestOf ⟨op, (h i op holders).1⟩ = none ∧ (h i op holders).2 = holders) ∨
      ∃ request, requestOf ⟨op, (h i op holders).1⟩ = some request ∧
        (h i op holders).2 = request.apply holders := by
  cases op with
  | awsQuery host service region creds params =>
    exact (hserved.answers i host service region creds params holders).of_confirms hconfirmed
  | _ => exact .inl ⟨rfl, hserved.quiet i _ holders (by rintro _ _ _ _ _ ⟨⟩)⟩

variable [DecidableEq ι]

/-- The marks of a run are those of what it has performed. -/
theorem filter_marks (i : ι) : (marks out inn hist).filter (·.run = i) =
    (((performedBy i hist).filterMap requestOf).filterMap (markOf out inn i)).reverse := by
  rw [List.filterMap_filterMap]
  induction hist with
  | nil => rfl
  | cons st hist ih =>
    rw [performedBy, List.filterMap_append, List.reverse_append, ← ih, marks, List.filterMap_cons]
    by_cases hi : st.who = i
    · subst hi
      rw [if_pos rfl]
      cases hm : markOfStep out inn st with
      | none =>
        have hnone : (requestOf st.event).bind (markOf out inn st.who) = none := hm
        simp [hnone, marks]
      | some m =>
        have hsome : (requestOf st.event).bind (markOf out inn st.who) = some m := hm
        simp [hsome, marks, run_markOfStep hm]
    · rw [if_neg hi]
      cases hm : markOfStep out inn st with
      | none => simp [marks]
      | some m => simp [marks, run_markOfStep hm, hi]

variable {init threads : ι → Program NodeOp NodeOp.Reply Bool} {s₀ s : Holders}

/-- Each address is at the interface of the run that claimed it last. -/
theorem holders_of_run (hserved : Served metadata h) (hne : out ≠ inn) (outside inside : ι → String)
    (run : Interleaved h init s₀ hist threads s) (hconfirmed : ∀ st ∈ hist, Confirmed st.event)
    (hclaims : ∀ st ∈ hist, ∀ request, requestOf st.event = some request →
      request = .assign (outside st.who) out true ∨ request = .assign (inside st.who) inn true) :
    (∀ j, (marks out inn hist).findSome? Mark.begins? = some j → s out = some (outside j)) ∧
      ∀ i, (marks out inn hist).findSome? Mark.ends? = some i → s inn = some (inside i) := by
  induction run with
  | start => exact ⟨by simp [marks], by simp [marks]⟩
  | @step hist threads s run i e k hi ih =>
    obtain ⟨hconfirmed', hconfirmed⟩ := List.forall_mem_cons.mp hconfirmed
    obtain ⟨hclaim, hclaims⟩ := List.forall_mem_cons.mp hclaims
    obtain ⟨hbegins, hends⟩ := ih hconfirmed hclaims
    rcases hserved.step hconfirmed' with ⟨hnone, hs⟩ | ⟨request, hrequest, hs⟩
    · rw [hs, marks_cons_none hnone]
      exact ⟨hbegins, hends⟩
    · rw [hs]
      rcases hclaim request hrequest with rfl | rfl
      · rw [marks_cons_some hrequest (m := .begins i) (by simp [markOf])]
        refine ⟨fun j hj => ?_, fun j hj => ?_⟩
        · obtain rfl : i = j := Option.some.inj hj
          exact Function.update_self ..
        · exact (Function.update_of_ne hne.symm ..).trans (hends j hj)
      · rw [marks_cons_some hrequest (m := .ends i) (by simp [markOf, hne.symm])]
        refine ⟨fun j hj => ?_, fun j hj => ?_⟩
        · exact (Function.update_of_ne hne ..).trans (hbegins j hj)
        · obtain rfl : i = j := Option.some.inj hj
          exact Function.update_self ..

end Interleavings

section Failover

/-- The metadata name the MAC of the primary interface. -/
def Primary (metadata : String → Option (List Char)) : Prop :=
  ∀ mac, value metadata "mac" = some mac →
    mac ∈ macs metadata ∧ deviceNumber metadata mac = some 0

/-- The interface that `aeroplug` takes by itself is the outside one of `aeropulse`. -/
theorem Resolved.outside_meant {metadata : String → Option (List Char)} {data : InstanceData}
    {eni_id : String} (hresolved : Resolved metadata data) (hattached : Attached metadata)
    (hprimary : Primary metadata) (hmeant : Meant metadata none eni_id) :
    eni_id = String.ofList data.outside.eni_id := by
  obtain ⟨mac, id, hmac, hid, rfl⟩ := hmeant
  obtain ⟨mac₀, hmem₀, hshows, hzero⟩ := hresolved.outside
  obtain ⟨hmem, hnumber⟩ := hprimary mac hmac
  obtain rfl : mac₀ = mac :=
    mac_unique hattached hmem₀ hmem (by rw [hshows.device_number, hzero, hnumber])
  rw [Option.some.inj (hid.symm.trans hshows.eni_id)]

variable {ι : Type} [DecidableEq ι] {metadata : ι → String → Option (List Char)}
  {h : ι → (op : NodeOp) → Holders → op.Reply × Holders} {data : ι → InstanceData}
  {region : ι → String} {hist : List (NodeStep ι)}
  {threads : ι → Program NodeOp NodeOp.Reply Bool} {s₀ s : Holders}

/-- What a run of the script claims. -/
def claims (data : InstanceData) : List AddressRequest :=
  [.assign (String.ofList data.outside.eni_id) (String.ofList data.vip_outside) true,
    .assign (String.ofList data.inside.eni_id) (String.ofList data.vip_inside) true]

/-- A run that has ended with the status 0 has claimed both addresses. -/
theorem performed_claims (hserved : Served metadata h) (hattached : ∀ i, Attached (metadata i))
    (hprimary : ∀ i, Primary (metadata i)) (hresolved : ∀ i, Resolved (metadata i) (data i))
    (run : Interleaved h (fun i => notifyMaster (region i) (data i)) s₀ hist threads s) {i : ι}
    (hended : threads i = .ret true) :
    (performedBy i hist).filterMap requestOf = claims (data i) ∧
      ∀ ev ∈ performedBy i hist, Confirmed ev := by
  have hexec : Exec (notifyMaster (region i) (data i)) (performedBy i hist) true := by
    have hret : Exec (threads i) [] true := hended ▸ .ret true
    simpa using run.exec_init hret
  have hreads : ∀ ev ∈ performedBy i hist, Reads (metadata i) ev.op ev.reply := by
    intro ev hev
    obtain ⟨st, hst, rfl, rfl⟩ := mem_performedBy.mp hev
    rw [run.reply st hst]
    exact hserved.reads _ _ _
  obtain ⟨eni_id, hmeant, hclaims, hconfirmed⟩ := exec_notifyMaster hexec hreads
  rw [(hresolved i).outside_meant (hattached i) (hprimary i) hmeant] at hclaims
  exact ⟨hclaims, hconfirmed⟩

/-- Once every run of the script that has begun has ended with the status 0, each address is at the
run that claimed it last, and both are at one run, unless one run lay within another. -/
theorem vips_together {out inn : String} (hserved : Served metadata h)
    (hattached : ∀ i, Attached (metadata i)) (hprimary : ∀ i, Primary (metadata i))
    (hresolved : ∀ i, Resolved (metadata i) (data i))
    (hout : ∀ i, String.ofList (data i).vip_outside = out)
    (hinn : ∀ i, String.ofList (data i).vip_inside = inn) (hne : out ≠ inn)
    (run : Interleaved h (fun i => notifyMaster (region i) (data i)) s₀ hist threads s)
    (hended : ∀ i, performedBy i hist = [] ∨ threads i = .ret true)
    (hmaster : ∃ i, threads i = .ret true) :
    ∃ i j, (marks out inn hist).findSome? Mark.ends? = some i ∧
      (marks out inn hist).findSome? Mark.begins? = some j ∧
      s inn = some (String.ofList (data i).inside.eni_id) ∧
      s out = some (String.ofList (data j).outside.eni_id) ∧
      (i = j ∨ [.ends i, .ends j, .begins j, .begins i].Sublist (marks out inn hist)) := by
  have hperformed := fun i (hi : threads i = .ret true) =>
    performed_claims hserved hattached hprimary hresolved run hi
  have hclaims : ∀ i, claims (data i) =
      [.assign (String.ofList (data i).outside.eni_id) out true,
        .assign (String.ofList (data i).inside.eni_id) inn true] := fun i => by
    rw [claims, hout, hinn]
  have hmarks : ∀ i, threads i = .ret true →
      (marks out inn hist).filter (·.run = i) = [.ends i, .begins i] := fun i hi => by
    rw [filter_marks, (hperformed i hi).1, hclaims]
    simp [markOf, hne.symm]
  have hcomplete : Complete (marks out inn hist) := fun i => by
    rcases hended i with hi | hi
    · left
      rw [filter_marks, hi]
      rfl
    · exact .inr (hmarks i hi)
  have hsome : marks out inn hist ≠ [] := fun hnil => by
    obtain ⟨i, hi⟩ := hmaster
    have := hmarks i hi
    simp [hnil] at this
  have hstep : ∀ st ∈ hist, Confirmed st.event ∧ ∀ request, requestOf st.event = some request →
      request ∈ claims (data st.who) := fun st hst => by
    have hmem : st.event ∈ performedBy st.who hist := mem_performedBy.mpr ⟨st, hst, rfl, rfl⟩
    obtain ⟨hrequests, hconfirmed⟩ :=
      hperformed st.who ((hended st.who).resolve_left (List.ne_nil_of_mem hmem))
    exact ⟨hconfirmed _ hmem, fun request hrequest =>
      hrequests ▸ List.mem_filterMap.mpr ⟨_, hmem, hrequest⟩⟩
  obtain ⟨hbegins, hends⟩ := holders_of_run hserved hne
    (fun i => String.ofList (data i).outside.eni_id) (fun i => String.ofList (data i).inside.eni_id)
    run (fun st hst => (hstep st hst).1) fun st hst request hrequest => by
      simpa [hclaims] using (hstep st hst).2 request hrequest
  obtain ⟨i, j, hi, hj, hnested⟩ := hcomplete.last_or_nested hsome
  exact ⟨i, j, hi, hj, hends i hi, hbegins j hj, hnested⟩

section Example

/-- EC2 serves the claims of both nodes. -/
def servingBoth (role : Role) : (op : NodeOp) → Holders → op.Reply × Holders
  | .awsQuery _ _ _ _ params, holders =>
    match AddressRequest.read params with
    | some (.assign eni_id ip true) =>
      (.ok "<return>true</return>".toList, Function.update holders ip (some eni_id))
    | _ => (.error ["refused"], holders)
  | op, holders => (answersOf (nodeMetadata role) op, holders)

theorem served_servingBoth : Served nodeMetadata servingBoth where
  reads role op holders := by
    cases op with
    | awsQuery host service region creds params => trivial
    | _ => exact reads_answersOf _
  quiet role op holders hop := by
    cases op with
    | awsQuery host service region creds params => exact absurd rfl (hop _ _ _ _ _)
    | _ => rfl
  answers role host service region creds params holders := by
    have hrefused : ¬Confirms (.error ["refused"]) := by rintro ⟨_, ⟨⟩, _⟩
    simp only [servingBoth]
    split
    next eni_id ip hread =>
      have hpermitted : (AddressRequest.assign eni_id ip true).Permitted holders := .inl rfl
      exact .served hread hpermitted
    next => exact .refused hrefused

/-- A run of the scripts of both nodes, which take the turns, newest first. -/
def bothMasters (turns : List Role) :
    List (NodeStep Role) × (Role → Program NodeOp NodeOp.Reply Bool) × Holders :=
  play servingBoth (fun role => notifyMaster "eu-west-2" (nodeData role)) (fun _ => none) turns

/-- The script of the backup begins while that of the master runs, and ends after it. -/
def overlap := bothMasters (List.replicate 5 .backup ++ List.replicate 5 .master ++
  List.replicate 6 .backup ++ List.replicate 6 .master)

def succeeded : Program NodeOp NodeOp.Reply Bool → Bool
  | .ret succeeded => succeeded
  | .call .. => false

theorem eq_ret_of_succeeded {p : Program NodeOp NodeOp.Reply Bool} (h : succeeded p = true) :
    p = .ret true := by
  cases p with
  | ret result => exact congrArg Program.ret h
  | call op k => cases h

theorem overlap_ended (role : Role) : overlap.2.1 role = .ret true :=
  eq_ret_of_succeeded (by cases role <;> decide +kernel)

theorem resolved_nodeData (role : Role) : Resolved (nodeMetadata role) (nodeData role) := by
  obtain ⟨htagged, ⟨ifaces, rest, hshows, heq⟩, eth1, heth1, hone, hsubnet⟩ :=
    yields_resolveInstanceData _ _ (exec_resolving role) (reads_resolving role)
  exact .of_sorted (attached_nodeMetadata role) htagged hshows heq heth1 hone hsubnet

theorem primary_nodeMetadata (role : Role) : Primary (nodeMetadata role) := by
  intro mac hmac
  have hvalue : value (nodeMetadata role) "mac" = some "02:aa".toList := by
    cases role <;> decide +kernel
  obtain rfl := Option.some.inj (hvalue.symm.trans hmac)
  cases role <;> exact ⟨by decide +kernel, by decide +kernel⟩

theorem vips_together_overlap : ∃ i j,
    (marks "10.0.0.100" "10.0.1.100" overlap.1).findSome? Mark.ends? = some i ∧
    (marks "10.0.0.100" "10.0.1.100" overlap.1).findSome? Mark.begins? = some j ∧
    overlap.2.2 "10.0.1.100" = some (String.ofList (nodeData i).inside.eni_id) ∧
    overlap.2.2 "10.0.0.100" = some (String.ofList (nodeData j).outside.eni_id) ∧
    (i = j ∨ [.ends i, .ends j, .begins j, .begins i].Sublist
      (marks "10.0.0.100" "10.0.1.100" overlap.1)) :=
  vips_together served_servingBoth attached_nodeMetadata primary_nodeMetadata resolved_nodeData
    (fun role => by cases role <;> decide +kernel) (fun role => by cases role <;> decide +kernel)
    (by decide) (interleaved_play _ _ _ _) (fun role => .inr (overlap_ended role))
    ⟨.master, overlap_ended .master⟩

/-- The whole script of the backup lies between the claims of the master, and the addresses are at
two nodes. -/
example : let holders := (bothMasters (List.replicate 5 .master ++ List.replicate 11 .backup ++
      List.replicate 6 .master)).2.2
    holders "10.0.0.100" = some "eni-a-backup" ∧ holders "10.0.1.100" = some "eni-b-master" := by
  decide +kernel

end Example

end Failover

end Aerosuite.Pulse.Node
