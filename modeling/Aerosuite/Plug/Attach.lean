import Aerosuite.Library.Fallible
import Aerosuite.Plug.Items

/-! The commands of `aeroplug` that attach, detach and take over a network interface.  What they
print is left out, and so is the warning when a selector matches several interfaces. -/

namespace Aerosuite.Plug

open Program Aws

structure AwsCredentials where
  access_key_id : String
  secret_access_key : String
  session_token : Option String
  deriving DecidableEq

/-- Why a command fails: the texts of an error, the outermost first, or a panic. -/
inductive Failure where
  | error (chain : List String)
  | panic (fault : Fault)
  deriving DecidableEq

inductive PlugOp where
  | fetchImdsInstanceId
  | fetchImdsCredentials
  | awsQuery (host service region : String) (creds : AwsCredentials)
    (params : List (String × String))
  | now
  | sleep (ms : ℕ)
  | createDirAll (dir : String)
  | write (path contents : String)
  deriving DecidableEq

/-- What an operation replies: an answer of AWS is the text of an XML document, and a clock reading
counts milliseconds. -/
abbrev PlugOp.Reply : PlugOp → Type
  | .fetchImdsInstanceId => Except (List String) String
  | .fetchImdsCredentials => Except (List String) AwsCredentials
  | .awsQuery .. => Except (List String) (List Char)
  | .now => ℕ
  | .sleep _ => Unit
  | .createDirAll _ | .write .. => Except (List String) Unit

abbrev PlugProgram := Fallible Failure PlugOp PlugOp.Reply

section Operations

/-- The program that performs one operation. -/
def plugCall (op : PlugOp) : Program PlugOp PlugOp.Reply op.Reply := perform op

/-- A reply, with the contexts that an error gets. -/
def reply {α : Type} (contexts : List String) : Except (List String) α → PlugProgram α
  | .ok a => pure a
  | .error chain => throw (.error (contexts ++ chain))

def fetchImdsInstanceId : PlugProgram String := do
  reply [] (← plugCall .fetchImdsInstanceId)

def fetchImdsCredentials : PlugProgram AwsCredentials := do
  reply [] (← plugCall .fetchImdsCredentials)

def awsQuery (host service region : String) (creds : AwsCredentials)
    (params : List (String × String)) : PlugProgram (List Char) := do
  reply [] (← plugCall (.awsQuery host service region creds params))

/-- What a search in a text returns. -/
def checked {α : Type} : Checked α → PlugProgram α
  | .ok a => pure a
  | .error fault => throw (.panic fault)

/-- `.context(message)?`. -/
def context {α : Type} (message : String) : Option α → PlugProgram α
  | some a => pure a
  | none => throw (.error [message])

/-- What a search in a text finds, with the context of its absence. -/
def required {α : Type} (message : String) (r : Checked (Option α)) : PlugProgram α := do
  context message (← checked r)

/-- `extract_scalar`, as a string. -/
def scalar (haystack : List Char) (tag : String) : Checked (Option String) := do
  let value ← extractScalar haystack tag.toList
  pure (value.map String.ofList)

/-- The id of the attachment in the content of an interface. -/
def attachmentOf (item_xml : List Char) : Checked (Option String) := do
  match ← extractBalanced item_xml "attachment".toList with
  | none => pure none
  | some a => scalar a "attachmentId"

end Operations

/-- The ways to name a network interface. -/
inductive EniSelector where
  | id (id : String)
  | name (name : String)
  | description (desc : String)
  | tags (pairs : List (String × String))
  | slot (n : ℕ)
  deriving DecidableEq

/-- The command line.  When neither `attach` nor `detach` is set, the command is a takeover. -/
structure Args where
  eni_id : Option String
  name : Option String
  description : Option String
  tag : List String
  slot : Option ℕ
  attach : Bool
  detach : Bool
  takeover_timeout : ℕ
  device_index : ℕ
  write_ip_file : Option String
  force : Bool
  region : String

namespace Args

/-- `kv.split_once('=')`. -/
def tagPair (kv : String) : Except String (String × String) :=
  match Text.splitOnce '=' kv.toList with
  | some (key, value) => .ok (String.ofList key, String.ofList value)
  | none => .error s!"--tag value '{kv}' is not in key=value format"

def eniSelector (args : Args) : Except String EniSelector :=
  match args.eni_id, args.name, args.description, args.tag, args.slot with
  | some id, _, _, _, _ => .ok (.id id)
  | none, some name, _, _, _ => .ok (.name name)
  | none, none, some desc, _, _ => .ok (.description desc)
  | none, none, none, kv :: kvs, _ => EniSelector.tags <$> (kv :: kvs).mapM tagPair
  | none, none, none, [], some n => .ok (.slot n)
  | none, none, none, [], none => .error
    "No ENI selector provided (use --eni-id, --name, --description, --tag, or --slot)"

end Args

section Requests

/-- One filter of a request. -/
def filterParams (filter_n : ℕ) (name value : String) : List (String × String) :=
  [(s!"Filter.{filter_n}.Name", name), (s!"Filter.{filter_n}.Value.1", value)]

/-- The parameters that `describe_eni_xml` adds for a selector, with the number of the next
filter. -/
def selectorParams : EniSelector → List (String × String) × ℕ
  | .id id => ([("NetworkInterfaceId.1", id)], 1)
  | .name name => (filterParams 1 "tag:Name" name, 2)
  | .description desc => (filterParams 1 "description" desc, 2)
  | .tags pairs => pairs.foldl
    (fun (owned, filter_n) (key, value) =>
      (owned ++ filterParams filter_n s!"tag:{key}" value, filter_n + 1)) ([], 1)
  | .slot n => (filterParams 1 "tag:aeroftp-slot" (toString n), 2)

def describeParams (selector : EniSelector) (status : Option String) : List (String × String) :=
  let (owned, filter_n) := selectorParams selector
  [("Action", "DescribeNetworkInterfaces"), ("Version", "2016-11-15")] ++ owned ++
    match status with
    | some s => filterParams filter_n "status" s
    | none => []

/-- The request of a poll. -/
def pollParams (eni_id : String) : List (String × String) :=
  [("Action", "DescribeNetworkInterfaces"), ("Version", "2016-11-15"),
    ("NetworkInterfaceId.1", eni_id)]

def attachParams (instance_id eni_id : String) (device_index : ℕ) : List (String × String) :=
  [("Action", "AttachNetworkInterface"), ("Version", "2016-11-15"),
    ("NetworkInterfaceId", eni_id), ("InstanceId", instance_id),
    ("DeviceIndex", toString device_index)]

def detachParams (attachment_id : String) (force : Bool) : List (String × String) :=
  [("Action", "DetachNetworkInterface"), ("Version", "2016-11-15"),
    ("AttachmentId", attachment_id), ("Force", toString force)]

/-- A query to EC2. -/
def ec2Query (region : String) (creds : AwsCredentials) (params : List (String × String)) :
    PlugProgram (List Char) :=
  awsQuery s!"ec2.{region}.amazonaws.com" "ec2" region creds params

def describeEniXml (region : String) (creds : AwsCredentials) (selector : EniSelector)
    (status : Option String) : PlugProgram (List Char) :=
  ec2Query region creds (describeParams selector status)

def resolveEni (region : String) (creds : AwsCredentials) (selector : EniSelector)
    (status : Option String) : PlugProgram (String × Option String) := do
  let xml ← describeEniXml region creds selector status
  let status_hint := (status.map fun s => s!" with status '{s}'").getD ""
  let item_xml ← required (s!"No ENI found matching the given selector{status_hint}. " ++
    "Check the ENI exists and the selector / region are correct.") (firstItem xml)
  let _ ← checked (countItems xml)
  let eni_id ← required "Could not extract networkInterfaceId"
    (scalar item_xml "networkInterfaceId")
  let private_ip ← checked (scalar item_xml "privateIpAddress")
  pure (eni_id, private_ip)

def resolveEniForDetach (region : String) (creds : AwsCredentials) (selector : EniSelector) :
    PlugProgram (String × String) := do
  let xml ← describeEniXml region creds selector (some "in-use")
  let item_xml ← required ("No in-use ENI found matching the given selector. " ++
    "Is it actually attached? Check the selector and region.") (firstItem xml)
  let _ ← checked (countItems xml)
  let eni_id ← required "Could not extract networkInterfaceId"
    (scalar item_xml "networkInterfaceId")
  let attachment_id ← required s!"ENI {eni_id} has no attachment block — is it actually attached?"
    (attachmentOf item_xml)
  pure (eni_id, attachment_id)

def doAttachEni (region : String) (creds : AwsCredentials) (instance_id eni_id : String)
    (device_index : ℕ) : PlugProgram String := do
  let xml ← ec2Query region creds (attachParams instance_id eni_id device_index)
  required "Could not extract attachmentId from AttachNetworkInterface response"
    (scalar xml "attachmentId")

def doDetachEni (region : String) (creds : AwsCredentials) (attachment_id : String)
    (force : Bool) : PlugProgram Unit := do
  let xml ← ec2Query region creds (detachParams attachment_id force)
  match ← checked (scalar xml "return") with
  | some v =>
    if v = "true" then pure ()
    else throw (.error [s!"DetachNetworkInterface returned unexpected value: {v}"])
  | none => throw (.error
    [s!"Could not parse DetachNetworkInterface response:\n{String.ofList xml}"])

/-- The status that an answer shows for its first interface, if it has one. -/
def statusOf (xml : List Char) : Checked (Option String) := do
  match ← firstItem xml with
  | none => pure none
  | some item_xml => scalar item_xml "status"

/-- The loop of `poll_until_available`, for a number of rounds. -/
def pollLoop (region : String) (creds : AwsCredentials) (eni_id : String)
    (timeout_secs deadline : ℕ) : ℕ → PlugProgram Unit
  | 0 => throw (.panic .unfinished)
  | rounds + 1 => do
    let xml ← ec2Query region creds (pollParams eni_id)
    if (← checked (statusOf xml)) = some "available" then pure ()
    else if deadline ≤ (← plugCall .now) then
      throw (.error [s!"Timed out after {timeout_secs} s waiting for {eni_id} to become " ++
        "available. Check the AWS console and retry."])
    else
      let _ ← plugCall (.sleep 2000)
      pollLoop region creds eni_id timeout_secs deadline rounds

def pollUntilAvailable (region : String) (creds : AwsCredentials) (eni_id : String)
    (timeout_secs rounds : ℕ) : PlugProgram Unit := do
  let deadline := (← plugCall .now) + timeout_secs * 1000
  pollLoop region creds eni_id timeout_secs deadline rounds

end Requests

section Commands

/-- The parts of a path between slashes, without those at its end that say nothing. -/
def pathParts (parts : List (List Char)) : List (List Char) :=
  match parts with
  | [] => []
  | first :: rest => first :: (rest.reverse.dropWhile fun part => part = [] ∨ part = ['.']).reverse

/-- `Path::parent`: the path without its last part, and nothing for the root and the empty path. -/
def parent (path : String) : Option String :=
  match pathParts (path.toList.splitOn '/') with
  | [] | [[]] => none
  | parts =>
    match pathParts parts.dropLast with
    | [] => some ""
    | [[]] => some "/"
    | parts => some (String.ofList (['/'].intercalate parts))

def createParent (path : String) : PlugProgram Unit :=
  match parent path with
  | some dir => do reply [s!"Failed to create directory {dir}"] (← plugCall (.createDirAll dir))
  | none => pure ()

/-- What `cmd_attach` and `cmd_takeover` do with the address of the interface. -/
def writeIpFile (write_ip_file private_ip : Option String) : PlugProgram Unit :=
  match write_ip_file, private_ip with
  | some path, some ip => do
    createParent path
    reply [s!"Failed to write IP to {path}"] (← plugCall (.write path ip))
  | _, _ => pure ()

def cmdAttach (args : Args) (selector : EniSelector) (instance_id : String)
    (creds : AwsCredentials) : PlugProgram Unit := do
  let (eni_id, private_ip) ← resolveEni args.region creds selector (some "available")
  let _ ← doAttachEni args.region creds instance_id eni_id args.device_index
  writeIpFile args.write_ip_file private_ip

def cmdDetach (args : Args) (selector : EniSelector) (creds : AwsCredentials) :
    PlugProgram Unit := do
  let (_, attachment_id) ← resolveEniForDetach args.region creds selector
  doDetachEni args.region creds attachment_id args.force

/-- The second and third step of `cmd_takeover`: the interface is taken from its holder. -/
def freeEni (args : Args) (creds : AwsCredentials) (eni_id current_status : String)
    (item_xml : List Char) (rounds : ℕ) : PlugProgram Unit :=
  if current_status = "in-use" then do
    let attachment_id ← required "ENI is in-use but has no attachment block — cannot detach"
      (attachmentOf item_xml)
    doDetachEni args.region creds attachment_id true
    pollUntilAvailable args.region creds eni_id args.takeover_timeout rounds
  else if current_status = "available" then pure ()
  else throw (.error [s!"ENI {eni_id} has unexpected status '{current_status}'; " ++
    "expected 'in-use' or 'available'."])

def cmdTakeover (args : Args) (selector : EniSelector) (instance_id : String)
    (creds : AwsCredentials) (rounds : ℕ) : PlugProgram Unit := do
  let xml ← describeEniXml args.region creds selector none
  let item_xml ← required "No ENI found matching the given selector. Check the selector and region."
    (firstItem xml)
  let _ ← checked (countItems xml)
  let eni_id ← required "Could not extract networkInterfaceId"
    (scalar item_xml "networkInterfaceId")
  let current_status ← required "Could not extract ENI status" (scalar item_xml "status")
  let private_ip ← checked (scalar item_xml "privateIpAddress")
  freeEni args creds eni_id current_status item_xml rounds
  let _ ← doAttachEni args.region creds instance_id eni_id args.device_index
  writeIpFile args.write_ip_file private_ip

/-- `run`, for a number of polls. -/
def run (args : Args) (rounds : ℕ) : PlugProgram Unit := do
  let instance_id ← fetchImdsInstanceId
  let creds ← fetchImdsCredentials
  match args.eniSelector with
  | .error message => throw (.error [message])
  | .ok selector =>
    if args.attach then cmdAttach args selector instance_id creds
    else if args.detach then cmdDetach args selector creds
    else cmdTakeover args selector instance_id creds rounds

end Commands

end Aerosuite.Plug
