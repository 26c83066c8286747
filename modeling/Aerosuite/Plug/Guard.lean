import Aerosuite.Plug.Attach

/-! What `aeroplug` asks of EC2, over every sequence of replies.  An interface is attached only
right after the answer to a request for available ones or one that shows it available, it is taken
away from a holder at most once and only by the attachment that the first answer shows, and nothing
happens after a failure. -/

namespace Aerosuite.Plug

open Program Aws

/-- The events of a command so far. -/
abbrev Log := List (Event PlugOp PlugOp.Reply)

/-- The action that a query asks for. -/
def PlugOp.action : PlugOp → Option String
  | .awsQuery _ _ _ _ params => params.lookup "Action"
  | _ => none

/-- The operation of a query to EC2. -/
def ec2Op (region : String) (creds : AwsCredentials) (params : List (String × String)) : PlugOp :=
  .awsQuery s!"ec2.{region}.amazonaws.com" "ec2" region creds params

def Succeeded : Event PlugOp PlugOp.Reply → Prop
  | ⟨.fetchImdsInstanceId, r⟩ => r.isOk
  | ⟨.fetchImdsCredentials, r⟩ => r.isOk
  | ⟨.awsQuery .., r⟩ => r.isOk
  | ⟨.createDirAll _, r⟩ => r.isOk
  | ⟨.write .., r⟩ => r.isOk
  | ⟨.now, _⟩ | ⟨.sleep _, _⟩ => True

/-- The first interface of an answer has the value in a field. -/
def Shows (xml : List Char) (tag value : String) : Prop :=
  ∃ item_xml, firstItem xml = .ok (some item_xml) ∧ scalar item_xml tag = .ok (some value)

/-- The first interface of an answer has the attachment. -/
def ShowsAttachment (xml : List Char) (attachment_id : String) : Prop :=
  ∃ item_xml, firstItem xml = .ok (some item_xml) ∧ attachmentOf item_xml = .ok (some attachment_id)

/-- The status that the command looks for. -/
def Args.status (args : Args) : Option String :=
  if args.attach then some "available" else if args.detach then some "in-use" else none

section Guards

variable (args : Args) (t : Log)

/-- The events begin with the instance, its credentials and the answer for the selector, and none
of them is a failure. -/
structure Found (instance_id : String) (creds : AwsCredentials) (selector : EniSelector)
    (xml : List Char) : Prop where
  selected : args.eniSelector = .ok selector
  first : [⟨.fetchImdsInstanceId, .ok instance_id⟩, ⟨.fetchImdsCredentials, .ok creds⟩,
    ⟨ec2Op args.region creds (describeParams selector args.status), .ok xml⟩] <+: t
  succeeded : ∀ ev ∈ t, Succeeded ev

/-- No event is a query for the action. -/
def Never (action : String) : Prop := ∀ ev ∈ t, ev.op.action ≠ some action

/-- The latest event is the answer to a request for available interfaces, whose status is not looked
at, or an answer whose first interface has that status. -/
def ShownAvailable (creds : AwsCredentials) (selector : EniSelector) (eni_id : String) : Prop :=
  ∃ params xml, t.getLast? = some ⟨ec2Op args.region creds params, .ok xml⟩ ∧
    (params = describeParams selector (some "available") ∨
      (params = describeParams selector none ∨ params = pollParams eni_id) ∧
        Shows xml "status" "available")

/-- The holder of the first interface was made to let go of it. -/
def Freed (creds : AwsCredentials) (xml : List Char) : Prop :=
  ∃ attachment_id answer, ShowsAttachment xml attachment_id ∧
    ⟨ec2Op args.region creds (detachParams attachment_id true), .ok answer⟩ ∈ t ∧
    scalar answer "return" = .ok (some "true")

def AttachGuard (op : PlugOp) : Prop :=
  ∃ instance_id creds selector xml eni_id, Found args t instance_id creds selector xml ∧
    Shows xml "networkInterfaceId" eni_id ∧
    op = ec2Op args.region creds (attachParams instance_id eni_id args.device_index) ∧
    (args.attach = true ∨ args.detach = false) ∧ Never t "AttachNetworkInterface" ∧
    ShownAvailable args t creds selector eni_id ∧
    (args.attach = true ∨ Shows xml "status" "available" ∨ Freed args t creds xml)

def DetachGuard (op : PlugOp) : Prop :=
  ∃ instance_id creds selector xml attachment_id, Found args t instance_id creds selector xml ∧
    ShowsAttachment xml attachment_id ∧
    op = ec2Op args.region creds (detachParams attachment_id (args.force || !args.detach)) ∧
    args.attach = false ∧ (args.detach = true ∨ Shows xml "status" "in-use") ∧
    Never t "AttachNetworkInterface" ∧ Never t "DetachNetworkInterface"

def WriteGuard (path ip : String) : Prop :=
  ∃ instance_id creds selector xml eni_id answer, Found args t instance_id creds selector xml ∧
    args.write_ip_file = some path ∧ Shows xml "privateIpAddress" ip ∧
    Shows xml "networkInterfaceId" eni_id ∧
    ⟨ec2Op args.region creds (attachParams instance_id eni_id args.device_index), .ok answer⟩ ∈ t ∧
    ∃ attachment_id, scalar answer "attachmentId" = .ok (some attachment_id)

/-- What a command may do after the events `t`. -/
structure Guard (op : PlugOp) : Prop where
  succeeded : ∀ ev ∈ t, Succeeded ev
  asks : ∀ action ∈ op.action,
    action ∈ ["DescribeNetworkInterfaces", "AttachNetworkInterface", "DetachNetworkInterface"]
  attaches : op.action = some "AttachNetworkInterface" → AttachGuard args t op
  detaches : op.action = some "DetachNetworkInterface" → DetachGuard args t op
  writes : ∀ path ip, op = .write path ip → WriteGuard args t path ip

end Guards

section Rules

variable {args : Args} {t : Log} {α : Type}

/-- A program that keeps the guard. -/
abbrev Keeps (args : Args) (Q : Log → α → Prop) : Log → PlugProgram α → Prop :=
  Obeys (Guard args) record Q

theorem checked_keeps (r : Checked α) :
    Keeps args (fun t' a => t' = t ∧ r = .ok a) t (checked r) := by
  cases r with
  | ok a => exact obeys_pure ⟨rfl, rfl⟩
  | error fault => exact obeys_throw _

theorem context_keeps (message : String) (o : Option α) :
    Keeps args (fun t' a => t' = t ∧ o = some a) t (context message o) := by
  cases o with
  | some a => exact obeys_pure ⟨rfl, rfl⟩
  | none => exact obeys_throw _

theorem required_keeps (message : String) (r : Checked (Option α)) :
    Keeps args (fun t' a => t' = t ∧ r = .ok (some a)) t (required message r) := by
  refine (checked_keeps r).bind fun t' o h => (context_keeps message o).mono fun t'' a h' => ?_
  obtain ⟨rfl, rfl⟩ := h'
  exact h

theorem reply_keeps (contexts : List String) (r : Except (List String) α) :
    Keeps args (fun t' a => t' = t ∧ r = .ok a) t (reply contexts r) := by
  cases r with
  | ok a => exact obeys_pure ⟨rfl, rfl⟩
  | error chain => exact obeys_throw _

theorem call_keeps {op : PlugOp} (hop : Guard args t op) :
    Keeps args (fun t' r => t' = t ++ [⟨op, r⟩]) t
      (liftM (plugCall op) : PlugProgram op.Reply) := by
  refine ⟨hop, fun r => ?_⟩
  rintro _ ⟨⟩
  rfl

theorem ec2Query_keeps {creds : AwsCredentials} {params : List (String × String)}
    (hop : Guard args t (ec2Op args.region creds params)) :
    Keeps args (fun t' xml => t' = t ++ [⟨ec2Op args.region creds params, .ok xml⟩]) t
      (ec2Query args.region creds params) := by
  refine (call_keeps hop).bind fun t' r ht' => (reply_keeps [] r).mono fun t'' xml h => ?_
  obtain ⟨rfl, rfl⟩ := h
  exact ht'

variable {creds : AwsCredentials} {selector : EniSelector}

theorem succeeded_ec2Op (region : String) (params : List (String × String)) (xml : List Char) :
    Succeeded ⟨ec2Op region creds params, .ok xml⟩ := rfl

theorem Found.append {instance_id : String} {xml : List Char}
    (h : Found args t instance_id creds selector xml) {u : Log} (hu : ∀ ev ∈ u, Succeeded ev) :
    Found args (t ++ u) instance_id creds selector xml :=
  ⟨h.selected, h.first.trans (List.prefix_append t u),
    List.forall_mem_append.mpr ⟨h.succeeded, hu⟩⟩

theorem WriteGuard.append {path ip : String} (h : WriteGuard args t path ip) {u : Log}
    (hu : ∀ ev ∈ u, Succeeded ev) : WriteGuard args (t ++ u) path ip := by
  obtain ⟨instance_id, creds, selector, xml, eni_id, answer, hfound, hpath, hip, heni, hattach,
    hid⟩ := h
  exact ⟨instance_id, creds, selector, xml, eni_id, answer, hfound.append hu, hpath, hip, heni,
    List.mem_append_left u hattach, hid⟩

theorem Never.append {action : String} (h : Never t action) {u : Log} (hu : Never u action) :
    Never (t ++ u) action := List.forall_mem_append.mpr ⟨h, hu⟩

/-- An operation that neither changes the interface nor writes a file. -/
theorem guard_of_quiet {op : PlugOp} (ht : ∀ ev ∈ t, Succeeded ev)
    (hop : ∀ action ∈ op.action, action = "DescribeNetworkInterfaces")
    (hwrite : ∀ path ip, op ≠ .write path ip) : Guard args t op where
  succeeded := ht
  asks action haction := by simp [hop action haction]
  attaches h := absurd (hop _ h) (by decide)
  detaches h := absurd (hop _ h) (by decide)
  writes path ip h := absurd h (hwrite path ip)

@[simp] theorem action_ec2Op (region : String) (creds : AwsCredentials)
    (params : List (String × String)) : (ec2Op region creds params).action =
      params.lookup "Action" := rfl

@[simp] theorem lookup_describeParams (selector : EniSelector) (status : Option String) :
    (describeParams selector status).lookup "Action" = some "DescribeNetworkInterfaces" := by
  simp [describeParams]

@[simp] theorem lookup_pollParams (eni_id : String) :
    (pollParams eni_id).lookup "Action" = some "DescribeNetworkInterfaces" := by
  simp [pollParams]

@[simp] theorem lookup_attachParams (instance_id eni_id : String) (device_index : ℕ) :
    (attachParams instance_id eni_id device_index).lookup "Action" =
      some "AttachNetworkInterface" := by
  simp [attachParams]

@[simp] theorem lookup_detachParams (attachment_id : String) (force : Bool) :
    (detachParams attachment_id force).lookup "Action" = some "DetachNetworkInterface" := by
  simp [detachParams]

theorem guard_clock {op : PlugOp} (ht : ∀ ev ∈ t, Succeeded ev)
    (hop : op = .now ∨ op = .sleep 2000) : Guard args t op := by
  rcases hop with rfl | rfl
  · exact guard_of_quiet ht (by simp [PlugOp.action]) nofun
  · exact guard_of_quiet ht (by simp [PlugOp.action]) nofun

theorem guard_describe (ht : ∀ ev ∈ t, Succeeded ev) (status : Option String) :
    Guard args t (ec2Op args.region creds (describeParams selector status)) :=
  guard_of_quiet ht (by simp) nofun

theorem guard_poll (ht : ∀ ev ∈ t, Succeeded ev) (eni_id : String) :
    Guard args t (ec2Op args.region creds (pollParams eni_id)) :=
  guard_of_quiet ht (by simp) nofun

theorem guard_attach {instance_id eni_id : String} {device_index : ℕ}
    (ht : ∀ ev ∈ t, Succeeded ev)
    (h : AttachGuard args t (ec2Op args.region creds
      (attachParams instance_id eni_id device_index))) :
    Guard args t (ec2Op args.region creds (attachParams instance_id eni_id device_index)) where
  succeeded := ht
  asks action haction := by
    rw [action_ec2Op, lookup_attachParams] at haction
    simp [← Option.some.inj haction]
  attaches _ := h
  detaches hop := by simp at hop
  writes path ip := nofun

theorem guard_detach {attachment_id : String} {force : Bool} (ht : ∀ ev ∈ t, Succeeded ev)
    (h : DetachGuard args t (ec2Op args.region creds (detachParams attachment_id force))) :
    Guard args t (ec2Op args.region creds (detachParams attachment_id force)) where
  succeeded := ht
  asks action haction := by
    rw [action_ec2Op, lookup_detachParams] at haction
    simp [← Option.some.inj haction]
  attaches hop := by simp at hop
  detaches _ := h
  writes path ip := nofun

end Rules

section Parts

variable {args : Args} {t : Log} {creds : AwsCredentials} {selector : EniSelector}

theorem resolveEni_keeps {status : Option String} (ht : ∀ ev ∈ t, Succeeded ev) :
    Keeps args (fun t' found => ∃ xml,
      t' = t ++ [⟨ec2Op args.region creds (describeParams selector status), .ok xml⟩] ∧
        Shows xml "networkInterfaceId" found.1 ∧
        ∀ ip, found.2 = some ip → Shows xml "privateIpAddress" ip) t
      (resolveEni args.region creds selector status) := by
  refine (ec2Query_keeps (guard_describe ht status)).bind fun t₁ xml ht₁ => ?_
  refine (required_keeps _ _).bind fun t₂ item_xml hitem => ?_
  obtain ⟨rfl, hitem⟩ := hitem
  refine (checked_keeps _).bind fun t₃ count hcount => ?_
  obtain ⟨rfl, -⟩ := hcount
  refine (required_keeps _ _).bind fun t₄ eni_id heni => ?_
  obtain ⟨rfl, heni⟩ := heni
  refine (checked_keeps _).bind fun t₅ private_ip hip => ?_
  obtain ⟨rfl, hip⟩ := hip
  exact obeys_pure ⟨xml, ht₁, ⟨item_xml, hitem, heni⟩, fun ip h => ⟨item_xml, hitem, h ▸ hip⟩⟩

theorem resolveEniForDetach_keeps (ht : ∀ ev ∈ t, Succeeded ev) :
    Keeps args (fun t' found => ∃ xml,
      t' = t ++ [⟨ec2Op args.region creds (describeParams selector (some "in-use")), .ok xml⟩] ∧
        ShowsAttachment xml found.2) t (resolveEniForDetach args.region creds selector) := by
  refine (ec2Query_keeps (guard_describe ht _)).bind fun t₁ xml ht₁ => ?_
  refine (required_keeps _ _).bind fun t₂ item_xml hitem => ?_
  obtain ⟨rfl, hitem⟩ := hitem
  refine (checked_keeps _).bind fun t₃ count hcount => ?_
  obtain ⟨rfl, -⟩ := hcount
  refine (required_keeps _ _).bind fun t₄ eni_id heni => ?_
  obtain ⟨rfl, -⟩ := heni
  refine (required_keeps _ _).bind fun t₅ attachment_id hattachment => ?_
  obtain ⟨rfl, hattachment⟩ := hattachment
  exact obeys_pure ⟨xml, ht₁, item_xml, hitem, hattachment⟩

theorem doAttachEni_keeps {instance_id eni_id : String} {device_index : ℕ}
    (hop : Guard args t (ec2Op args.region creds (attachParams instance_id eni_id device_index))) :
    Keeps args (fun t' attachment_id => ∃ answer,
      t' = t ++ [⟨ec2Op args.region creds (attachParams instance_id eni_id device_index),
        .ok answer⟩] ∧ scalar answer "attachmentId" = .ok (some attachment_id)) t
      (doAttachEni args.region creds instance_id eni_id device_index) := by
  refine (ec2Query_keeps hop).bind fun t₁ xml ht₁ => ?_
  refine (required_keeps _ _).mono fun t₂ attachment_id hattachment => ?_
  obtain ⟨rfl, hattachment⟩ := hattachment
  exact ⟨xml, ht₁, hattachment⟩

theorem doDetachEni_keeps {attachment_id : String} {force : Bool}
    (hop : Guard args t (ec2Op args.region creds (detachParams attachment_id force))) :
    Keeps args (fun t' _ => ∃ answer,
      t' = t ++ [⟨ec2Op args.region creds (detachParams attachment_id force), .ok answer⟩] ∧
        scalar answer "return" = .ok (some "true")) t
      (doDetachEni args.region creds attachment_id force) := by
  refine (ec2Query_keeps hop).bind fun t₁ xml ht₁ => ?_
  refine (checked_keeps _).bind fun t₂ value hvalue => ?_
  obtain ⟨rfl, hvalue⟩ := hvalue
  cases value with
  | none => exact obeys_throw _
  | some v =>
    by_cases hv : v = "true"
    · simp only [hv, if_true]
      exact obeys_pure ⟨xml, ht₁, hv ▸ hvalue⟩
    · simp only [hv, if_false]
      exact obeys_throw _

theorem shows_of_statusOf {xml : List Char} {status : String}
    (h : statusOf xml = .ok (some status)) : Shows xml "status" status := by
  rw [statusOf] at h
  cases hitem : firstItem xml with
  | error fault => simp [hitem, bind, Except.bind] at h
  | ok item =>
    cases item with
    | none => simp [hitem, bind, Except.bind, pure, Except.pure] at h
    | some item_xml => exact ⟨item_xml, hitem, by simpa [hitem, bind, Except.bind] using h⟩

/-- The polls go on until one shows the interface available. -/
theorem pollLoop_keeps {eni_id : String} {timeout_secs deadline : ℕ} (rounds : ℕ)
    (ht : ∀ ev ∈ t, Succeeded ev) :
    Keeps args (fun t' _ => ∃ u xml,
      t' = t ++ u ++ [⟨ec2Op args.region creds (pollParams eni_id), .ok xml⟩] ∧
        Shows xml "status" "available" ∧ (∀ ev ∈ u, Succeeded ev) ∧
        Never u "AttachNetworkInterface") t
      (pollLoop args.region creds eni_id timeout_secs deadline rounds) := by
  induction rounds generalizing t with
  | zero => exact obeys_throw _
  | succ rounds ih =>
    refine (ec2Query_keeps (guard_poll ht eni_id)).bind fun t₁ xml ht₁ => ?_
    have hpoll : ∀ ev ∈ t₁, Succeeded ev := by
      rw [ht₁]
      exact List.forall_mem_append.mpr ⟨ht, by simp [succeeded_ec2Op]⟩
    refine (checked_keeps _).bind fun t₂ status hstatus => ?_
    obtain ⟨rfl, hstatus⟩ := hstatus
    by_cases havailable : status = some "available"
    · simp only [havailable, if_true]
      refine obeys_pure ⟨[], xml, by simpa using ht₁, ?_, by simp, by simp [Never]⟩
      exact shows_of_statusOf (havailable ▸ hstatus)
    · simp only [havailable, if_false]
      refine (call_keeps (guard_clock hpoll (.inl rfl))).bind fun t₃ now ht₃ => ?_
      have hclock : ∀ ev ∈ t₃, Succeeded ev := by
        rw [ht₃]
        exact List.forall_mem_append.mpr ⟨hpoll, by simp [Succeeded]⟩
      by_cases hdeadline : deadline ≤ now
      · simp only [hdeadline, if_true]
        exact obeys_throw _
      · simp only [hdeadline, if_false]
        refine (call_keeps (guard_clock hclock (.inr rfl))).bind fun t₄ _ ht₄ => ?_
        have hslept : ∀ ev ∈ t₄, Succeeded ev := by
          rw [ht₄]
          exact List.forall_mem_append.mpr ⟨hclock, by simp [Succeeded]⟩
        refine (ih hslept).mono fun t₅ _ hrest => ?_
        obtain ⟨u, answer, rfl, hanswer, hu, hnever⟩ := hrest
        refine ⟨[⟨ec2Op args.region creds (pollParams eni_id), .ok xml⟩, ⟨.now, now⟩,
          ⟨.sleep 2000, ()⟩] ++ u, answer, by simp [ht₄, ht₃, ht₁], hanswer, ?_, ?_⟩
        · refine List.forall_mem_append.mpr ⟨?_, hu⟩
          simp only [List.forall_mem_cons, succeeded_ec2Op]
          simp [Succeeded]
        · refine Never.append ?_ hnever
          simp only [Never, List.forall_mem_cons, action_ec2Op, lookup_pollParams]
          simp [PlugOp.action]

theorem pollUntilAvailable_keeps {eni_id : String} {timeout_secs rounds : ℕ}
    (ht : ∀ ev ∈ t, Succeeded ev) :
    Keeps args (fun t' _ => ∃ u xml,
      t' = t ++ u ++ [⟨ec2Op args.region creds (pollParams eni_id), .ok xml⟩] ∧
        Shows xml "status" "available" ∧ (∀ ev ∈ u, Succeeded ev) ∧
        Never u "AttachNetworkInterface") t
      (pollUntilAvailable args.region creds eni_id timeout_secs rounds) := by
  refine (call_keeps (guard_clock ht (.inl rfl))).bind fun t₁ now ht₁ => ?_
  have hclock : ∀ ev ∈ t₁, Succeeded ev := by
    rw [ht₁]
    exact List.forall_mem_append.mpr ⟨ht, by simp [Succeeded]⟩
  refine (pollLoop_keeps rounds hclock).mono fun t₂ _ hrest => ?_
  obtain ⟨u, answer, rfl, hanswer, hu, hnever⟩ := hrest
  refine ⟨⟨.now, now⟩ :: u, answer, by simp [ht₁], hanswer, ?_, ?_⟩
  · exact List.forall_mem_cons.mpr ⟨by simp [Succeeded], hu⟩
  · exact List.forall_mem_cons.mpr ⟨by simp [PlugOp.action], hnever⟩

theorem createParent_keeps (path : String) (ht : ∀ ev ∈ t, Succeeded ev) :
    Keeps args (fun t' _ => ∃ u, t' = t ++ u ∧ ∀ ev ∈ u, Succeeded ev) t (createParent path) := by
  unfold createParent
  split
  · next dir _ =>
    have hdir : Guard args t (.createDirAll dir) :=
      guard_of_quiet ht (by simp [PlugOp.action]) nofun
    refine (call_keeps hdir).bind fun t₁ r ht₁ => (reply_keeps _ r).mono fun t₂ _ h => ?_
    obtain ⟨rfl, rfl⟩ := h
    exact ⟨_, ht₁, by simp [Succeeded, Except.isOk, Except.toBool]⟩
  · exact obeys_pure ⟨[], by simp, by simp⟩

theorem writeIpFile_keeps {private_ip : Option String} (ht : ∀ ev ∈ t, Succeeded ev)
    (hwrite : ∀ path ip, args.write_ip_file = some path → private_ip = some ip →
      WriteGuard args t path ip) :
    Keeps args (fun _ _ => True) t (writeIpFile args.write_ip_file private_ip) := by
  unfold writeIpFile
  split
  · next path ip hpath =>
    refine (createParent_keeps path ht).bind fun t₁ _ hdone => ?_
    obtain ⟨u, rfl, hu⟩ := hdone
    have hguard := (hwrite path ip hpath rfl).append hu
    have hop : Guard args (t ++ u) (.write path ip) := by
      refine ⟨List.forall_mem_append.mpr ⟨ht, hu⟩, nofun, nofun, nofun, ?_⟩
      rintro _ _ ⟨⟩
      exact hguard
    exact (call_keeps hop).bind fun t₂ r _ => (reply_keeps _ r).mono fun _ _ _ => trivial
  · exact obeys_pure trivial

end Parts

section Commands

variable {args : Args} {instance_id : String} {creds : AwsCredentials} {selector : EniSelector}

/-- The events before the first query. -/
def identified (instance_id : String) (creds : AwsCredentials) : Log :=
  [⟨.fetchImdsInstanceId, .ok instance_id⟩, ⟨.fetchImdsCredentials, .ok creds⟩]

theorem succeeded_identified : ∀ ev ∈ identified instance_id creds, Succeeded ev := by
  simp only [identified, List.forall_mem_cons]
  exact ⟨rfl, rfl, List.forall_mem_nil _⟩

theorem never_identified (action : String) : Never (identified instance_id creds) action := by
  simp [Never, identified, PlugOp.action]

/-- The events up to the first answer. -/
theorem found_first (instance_id : String) (creds : AwsCredentials)
    (hselector : args.eniSelector = .ok selector) {status : Option String}
    (hstatus : args.status = status) (xml : List Char) :
    Found args (identified instance_id creds ++
      [⟨ec2Op args.region creds (describeParams selector status), .ok xml⟩])
      instance_id creds selector xml where
  selected := hselector
  first := by
    rw [← hstatus]
    exact List.prefix_rfl
  succeeded := List.forall_mem_append.mpr ⟨succeeded_identified, by simp [succeeded_ec2Op]⟩

theorem never_first {action : String} (h : action ≠ "DescribeNetworkInterfaces")
    (status : Option String) (xml : List Char) : Never (identified instance_id creds ++
      [⟨ec2Op args.region creds (describeParams selector status), .ok xml⟩]) action := by
  refine (never_identified action).append ?_
  simp only [Never, List.forall_mem_cons, action_ec2Op, lookup_describeParams]
  exact ⟨fun heq => h (Option.some.inj heq).symm, List.forall_mem_nil _⟩

theorem cmdAttach_keeps (hselector : args.eniSelector = .ok selector)
    (hattach : args.attach = true) : Keeps args (fun _ _ => True) (identified instance_id creds)
      (cmdAttach args selector instance_id creds) := by
  have hstatus : args.status = some "available" := by simp [Args.status, hattach]
  refine (resolveEni_keeps succeeded_identified).bind fun t₁ (eni_id, private_ip) hfound => ?_
  obtain ⟨xml, rfl, heni, hip⟩ := hfound
  have hfirst := found_first instance_id creds hselector hstatus xml
  refine (doAttachEni_keeps (guard_attach hfirst.succeeded ⟨instance_id, creds, selector, xml,
    eni_id, hfirst, heni, rfl, .inl hattach, never_first (by decide) _ xml,
    ⟨_, xml, by simp, .inl rfl⟩, .inl hattach⟩)).bind fun t₂ attachment_id hattached => ?_
  obtain ⟨answer, rfl, hid⟩ := hattached
  have hlog := hfirst.append (u := [⟨ec2Op args.region creds
    (attachParams instance_id eni_id args.device_index), .ok answer⟩]) (by simp [succeeded_ec2Op])
  exact writeIpFile_keeps hlog.succeeded fun path ip hpath hsome =>
    ⟨instance_id, creds, selector, xml, eni_id, answer, hlog, hpath, hip ip hsome, heni,
      List.mem_append_right _ List.mem_cons_self, attachment_id, hid⟩

theorem cmdDetach_keeps (hselector : args.eniSelector = .ok selector)
    (hattach : args.attach = false) (hdetach : args.detach = true) :
    Keeps args (fun _ _ => True) (identified instance_id creds)
      (cmdDetach args selector creds) := by
  have hstatus : args.status = some "in-use" := by simp [Args.status, hattach, hdetach]
  refine (resolveEniForDetach_keeps succeeded_identified).bind fun t₁
    (_, attachment_id) hfound => ?_
  obtain ⟨xml, rfl, hattachment⟩ := hfound
  have hfirst := found_first instance_id creds hselector hstatus xml
  refine (doDetachEni_keeps (guard_detach hfirst.succeeded ⟨instance_id, creds, selector, xml,
    attachment_id, hfirst, hattachment, by simp [hdetach], hattach, .inl hdetach,
    never_first (by decide) _ xml, never_first (by decide) _ xml⟩)).mono fun _ _ _ => trivial

/-- An interface is freed before a takeover attaches it. -/
theorem freeEni_keeps {t : Log} {xml item_xml : List Char} {eni_id status : String} {rounds : ℕ}
    (hfirst : Found args t instance_id creds selector xml) (hattach : args.attach = false)
    (hdetach : args.detach = false) (hitem : firstItem xml = .ok (some item_xml))
    (hshown : scalar item_xml "status" = .ok (some status))
    (hlast : t.getLast? = some ⟨ec2Op args.region creds (describeParams selector none), .ok xml⟩)
    (hno : Never t "AttachNetworkInterface") (hno' : Never t "DetachNetworkInterface") :
    Keeps args (fun t' _ => Found args t' instance_id creds selector xml ∧
      Never t' "AttachNetworkInterface" ∧ ShownAvailable args t' creds selector eni_id ∧
      (Shows xml "status" "available" ∨ Freed args t' creds xml)) t
      (freeEni args creds eni_id status item_xml rounds) := by
  unfold freeEni
  by_cases hused : status = "in-use"
  · simp only [hused, if_true]
    refine (required_keeps _ _).bind fun t₁ attachment_id hattachment => ?_
    obtain ⟨rfl, hattachment⟩ := hattachment
    have hshows : ShowsAttachment xml attachment_id := ⟨item_xml, hitem, hattachment⟩
    refine (doDetachEni_keeps (guard_detach hfirst.succeeded ⟨instance_id, creds, selector, xml,
      attachment_id, hfirst, hshows, by simp [hdetach], hattach,
      .inr ⟨item_xml, hitem, hused ▸ hshown⟩, hno, hno'⟩)).bind fun t₂ _ hdetached => ?_
    obtain ⟨answer, rfl, hreturn⟩ := hdetached
    have hlog := hfirst.append (u := [⟨ec2Op args.region creds (detachParams attachment_id true),
      .ok answer⟩]) (by simp [succeeded_ec2Op])
    refine (pollUntilAvailable_keeps hlog.succeeded).mono fun t₃ _ hpolled => ?_
    obtain ⟨u, polled, rfl, havailable, hu, hnever⟩ := hpolled
    refine ⟨(hlog.append hu).append (by simp [succeeded_ec2Op]), ?_,
      ⟨_, polled, List.getLast?_concat, .inr ⟨.inr rfl, havailable⟩⟩,
      .inr ⟨attachment_id, answer, hshows, by simp, hreturn⟩⟩
    refine ((hno.append ?_).append hnever).append ?_
    · simp [Never]
    · simp [Never]
  · by_cases hfree : status = "available"
    · simp only [hfree, if_neg (show "available" ≠ "in-use" by decide), if_true]
      have hshows : Shows xml "status" "available" := ⟨item_xml, hitem, hfree ▸ hshown⟩
      exact obeys_pure ⟨hfirst, hno, ⟨_, xml, hlast, .inr ⟨.inl rfl, hshows⟩⟩, .inl hshows⟩
    · simp only [hused, hfree, if_false]
      exact obeys_throw _

theorem cmdTakeover_keeps (hselector : args.eniSelector = .ok selector)
    (hattach : args.attach = false) (hdetach : args.detach = false) (rounds : ℕ) :
    Keeps args (fun _ _ => True) (identified instance_id creds)
      (cmdTakeover args selector instance_id creds rounds) := by
  have hstatus : args.status = none := by simp [Args.status, hattach, hdetach]
  refine (ec2Query_keeps (guard_describe succeeded_identified none)).bind fun t₁ xml ht₁ => ?_
  have hfirst := found_first instance_id creds hselector hstatus xml
  rw [← ht₁] at hfirst
  refine (required_keeps _ _).bind fun t₂ item_xml hitem => ?_
  obtain ⟨rfl, hitem⟩ := hitem
  refine (checked_keeps _).bind fun t₃ count hcount => ?_
  obtain ⟨rfl, -⟩ := hcount
  refine (required_keeps _ _).bind fun t₄ eni_id heni => ?_
  obtain ⟨rfl, heni⟩ := heni
  refine (required_keeps _ _).bind fun t₅ status hshown => ?_
  obtain ⟨rfl, hshown⟩ := hshown
  refine (checked_keeps _).bind fun t₆ private_ip hip => ?_
  obtain ⟨rfl, hip⟩ := hip
  have hshows : Shows xml "networkInterfaceId" eni_id := ⟨item_xml, hitem, heni⟩
  refine (freeEni_keeps hfirst hattach hdetach hitem hshown (by simp [ht₁])
    (ht₁ ▸ never_first (by decide) none xml) (ht₁ ▸ never_first (by decide) none xml)).bind
      fun t₇ _ hfree => ?_
  obtain ⟨hlog, hnever, havailable, hfreed⟩ := hfree
  refine (doAttachEni_keeps (guard_attach hlog.succeeded ⟨instance_id, creds, selector, xml, eni_id,
    hlog, hshows, rfl, .inr hdetach, hnever, havailable, .inr hfreed⟩)).bind
      fun t₈ attachment_id hattached => ?_
  obtain ⟨answer, rfl, hid⟩ := hattached
  have hdone := hlog.append (u := [⟨ec2Op args.region creds
    (attachParams instance_id eni_id args.device_index), .ok answer⟩]) (by simp [succeeded_ec2Op])
  exact writeIpFile_keeps hdone.succeeded fun path ip hpath hsome =>
    ⟨instance_id, creds, selector, xml, eni_id, answer, hdone, hpath,
      ⟨item_xml, hitem, hsome ▸ hip⟩, hshows, List.mem_append_right _ List.mem_cons_self,
      attachment_id, hid⟩

theorem run_keeps (args : Args) (rounds : ℕ) :
    Keeps args (fun _ _ => True) [] (run args rounds) := by
  refine Obeys.bind (Q := fun t id => t = [⟨.fetchImdsInstanceId, .ok id⟩]) ?_
    fun t₁ instance_id ht₁ => ?_
  · refine (call_keeps (guard_of_quiet (List.forall_mem_nil _) (by simp [PlugOp.action])
      (fun _ _ h => by cases h))).bind fun t r ht => (reply_keeps [] r).mono fun t' a h => ?_
    obtain ⟨rfl, rfl⟩ := h
    exact ht
  refine Obeys.bind (Q := fun t creds => t = identified instance_id creds) ?_ fun t₂ creds ht₂ => ?_
  · have ht : ∀ ev ∈ t₁, Succeeded ev := by
      rw [ht₁]
      exact List.forall_mem_cons.mpr ⟨rfl, List.forall_mem_nil _⟩
    refine (call_keeps (guard_of_quiet ht (by simp [PlugOp.action])
      (fun _ _ h => by cases h))).bind fun t r ht => (reply_keeps [] r).mono fun t' a h => ?_
    obtain ⟨rfl, rfl⟩ := h
    rw [ht, ht₁]
    rfl
  subst ht₂
  cases hselector : args.eniSelector with
  | error message => exact obeys_throw _
  | ok selector =>
    by_cases hattach : args.attach = true
    · simp only [hattach, if_true]
      exact cmdAttach_keeps hselector hattach
    · by_cases hdetach : args.detach = true
      · simp only [hattach, hdetach, if_true]
        exact cmdDetach_keeps hselector (by simpa using hattach) hdetach
      · simp only [hattach, hdetach]
        exact cmdTakeover_keeps hselector (by simpa using hattach) (by simpa using hdetach) rounds

end Commands

/-- Whatever EC2 and the metadata service reply, a command attaches an interface only when it has
just asked for available ones or was shown that this one is, takes one away at most once and only
from the holder that the first answer shows, writes a file only for an interface that it has
attached, and does nothing after a failure. -/
theorem eni_guarded (args : Args) (rounds : ℕ) {t : Log} {op : PlugOp}
    (h : Performs (run args rounds).run t op) : Guard args t op := by
  have hguard := (run_keeps args rounds).toFollows.performs h
  rwa [foldl_record, List.nil_append] at hguard

/-- A command line that attaches the interface of slot 3. -/
def attachSlot : Args where
  eni_id := none
  name := none
  description := none
  tag := []
  slot := some 3
  attach := true
  detach := false
  takeover_timeout := 30
  device_index := 1
  write_ip_file := none
  force := false
  region := "eu-west-2"

/-- An answer with one interface. -/
def shortAnswer : List Char := "<item><networkInterfaceId>e</networkInterfaceId></item>".toList

theorem eni_guarded_attach :
    let creds : AwsCredentials := ⟨"k", "s", none⟩
    Guard attachSlot (identified "i-1" creds ++ [⟨ec2Op "eu-west-2" creds
      (describeParams (.slot 3) (some "available")), .ok shortAnswer⟩])
      (ec2Op "eu-west-2" creds (attachParams "i-1" "e" 1)) := by
  obtain ⟨item, hitem, hid, hip⟩ : ∃ item, firstItem shortAnswer = .ok (some item) ∧
      scalar item "networkInterfaceId" = .ok (some "e") ∧
      scalar item "privateIpAddress" = .ok none :=
    ⟨"<networkInterfaceId>e</networkInterfaceId>".toList, by decide +kernel⟩
  have hcount : countItems shortAnswer = .ok 0 := by decide +kernel
  refine eni_guarded attachSlot 0 ?_
  have hselector : attachSlot.eniSelector = .ok (.slot 3) := rfl
  have hattach : attachSlot.attach = true := rfl
  have hregion : attachSlot.region = "eu-west-2" := rfl
  have hindex : attachSlot.device_index = 1 := rfl
  simp [identified, run, fetchImdsInstanceId, fetchImdsCredentials, reply, plugCall, performs_call,
    hselector, hattach, hregion, hindex, cmdAttach, resolveEni, describeEniXml, ec2Query, ec2Op,
    awsQuery, required, checked, context, hitem, hcount, hid, hip, doAttachEni, ExceptT.run_bind]

end Aerosuite.Plug
