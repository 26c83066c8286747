import Aerosuite.Library.Fallible
import Aerosuite.Plug.Attach
import Aerosuite.Scale.State

/-! What `aeropulse` reads of its load balancer node from the metadata service.  The interfaces are
read twice, for the node itself and for the network of the slots, and the two readings are of the
same interface. -/

namespace Aerosuite.Pulse.Node

open Program Text
open Scale (Ipv4Addr SlotNetwork)
open Plug (AwsCredentials Failure)

/-- How a request to the metadata service ends. -/
inductive ImdsReply where
  | unreachable (cause : List String)
  | refused (cause : List String)
  | unreadable (cause : List String)
  | body (text : List Char)

/-- The operations of the programs of a node. -/
inductive NodeOp where
  | putToken
  | getPath (token : List Char) (path : String)
  | fetchImdsCredentials
  | awsQuery (host service region : String) (creds : AwsCredentials)
    (params : List (String × String))
  | log (message : String)

abbrev NodeOp.Reply : NodeOp → Type
  | .putToken | .getPath .. => ImdsReply
  | .fetchImdsCredentials => Except (List String) AwsCredentials
  | .awsQuery .. => Except (List String) (List Char)
  | .log _ => Bool

abbrev NodeProgram := Fallible Failure NodeOp NodeOp.Reply

section Imds

def nodeCall (op : NodeOp) : Program NodeOp NodeOp.Reply op.Reply := perform op

/-- `.context(message)` on a result, and on an option. -/
def Failure.inContext (message : String) : Failure → Failure
  | .error chain => .error (message :: chain)
  | .panic fault => .panic fault

def inContext {α : Type} (message : String) (p : NodeProgram α) : NodeProgram α :=
  ExceptT.adapt (Failure.inContext message) p

def context {α : Type} (message : String) : Option α → NodeProgram α
  | some a => pure a
  | none => throw (.error [message])

/-- The text of a reply, or the error for the step that failed. -/
def imdsText (send status read : String) : ImdsReply → NodeProgram (List Char)
  | .unreachable cause => throw (.error (send :: cause))
  | .refused cause => throw (.error (status :: cause))
  | .unreadable cause => throw (.error (read :: cause))
  | .body text => pure text

def fetchImdsToken : NodeProgram (List Char) := do
  let reply ← nodeCall .putToken
  imdsText "Failed to reach IMDS — is this running on an EC2 instance?" "IMDS token request failed"
    "Failed to read IMDS token" reply

def fetchImdsPath (token : List Char) (path : String) : NodeProgram (List Char) := do
  let reply ← nodeCall (.getPath token path)
  let text ← imdsText s!"Failed to fetch IMDS path '{path}'"
    s!"IMDS returned error for path '{path}'" s!"Failed to read IMDS response for '{path}'" reply
  pure (trim text)

def macPath (mac : List Char) (field : String) : String :=
  s!"network/interfaces/macs/{String.ofList mac}/{field}"

/-- The entries of a listing: each line without the slashes and the blanks around it. -/
def macLines (macs_raw : List Char) : List (List Char) :=
  (lines macs_raw).map fun s => trim (s.rdropWhile (· = '/'))

end Imds

section SlotNetwork

structure DiscoveredNetwork extends SlotNetwork where
  prefix_len : ℕ

/-- The loop of `from_imds`. -/
def findEth1 (token : List Char) : List (List Char) → NodeProgram (Option (List Char))
  | [] => pure none
  | mac :: macs =>
    if mac = [] then findEth1 token macs
    else do
      let dev ← tryCatch (fetchImdsPath token (macPath mac "device-number")) fun _ => pure []
      if trim dev = ['1'] then pure (some mac) else findEth1 token macs

/-- `from_imds`. -/
def slotNetworkFromImds : NodeProgram DiscoveredNetwork := do
  let token ← fetchImdsToken
  let macs_raw ← fetchImdsPath token "network/interfaces/macs/"
  let eth1_mac ← findEth1 token (macLines macs_raw)
  let mac ← context "No eth1 (device index 1) found in IMDS — is the inside ENI attached?" eth1_mac
  let cidr ← inContext "Failed to read eth1 subnet CIDR from IMDS"
    (fetchImdsPath token (macPath mac "subnet-ipv4-cidr-block"))
  let cidr := trim cidr
  let (base_str, prefix_str) ← context s!"IMDS returned invalid CIDR: '{String.ofList cidr}'"
    (splitOnce '/' cidr)
  let base ← context s!"Invalid subnet base IP: '{String.ofList base_str}'"
    (Ipv4Addr.parse base_str)
  let prefix_len ← context s!"Invalid prefix length: '{String.ofList prefix_str}'"
    (parseU8 prefix_str)
  let offset_raw ← inContext
    "Instance tag 'aeroftp-slot-offset' not found — add it to the ASG launch template"
    (fetchImdsPath token "tags/instance/aeroftp-slot-offset")
  let offset ← context s!"Invalid aeroftp-slot-offset value: '{String.ofList offset_raw}'"
    (parseU32 (trim offset_raw))
  pure ⟨⟨base, offset⟩, prefix_len⟩

end SlotNetwork

section Instance

structure IfaceInfo where
  device_number : ℕ
  eni_id : List Char
  primary_ip : List Char

inductive Role where
  | master
  | backup
  deriving DecidableEq

structure InstanceData where
  instance_id : List Char
  role : Role
  outside : IfaceInfo
  inside : IfaceInfo
  peer_sync_ip : List Char
  sync : IfaceInfo
  vip_outside : List Char
  vip_inside : List Char
  slot_network : DiscoveredNetwork
  slot_count : ℕ

def tagPath (tag_key : String) : String := s!"tags/instance/{tag_key}"

def fetchImdsTag (token : List Char) (tag_key : String) : NodeProgram (List Char) :=
  inContext (s!"Failed to read tag '{tag_key}' from IMDS. " ++
    "Is 'Instance tags in metadata' enabled on this instance " ++
    "(LaunchTemplate → MetadataOptions → InstanceMetadataTags)?")
    (fetchImdsPath token (tagPath tag_key))

/-- What the loop of `fetch_all_interfaces` does for a MAC. -/
def fetchInterface (token mac : List Char) : NodeProgram IfaceInfo := do
  let number ← inContext s!"Failed to read device-number for MAC {String.ofList mac}"
    (fetchImdsPath token (macPath mac "device-number"))
  let device_number ← context
    s!"device-number for MAC {String.ofList mac} is not a valid integer" (parseU32 number)
  let eni_id ← inContext s!"Failed to read interface-id for MAC {String.ofList mac}"
    (fetchImdsPath token (macPath mac "interface-id"))
  let ips_raw ← inContext s!"Failed to read local-ipv4s for MAC {String.ofList mac}"
    (fetchImdsPath token (macPath mac "local-ipv4s"))
  let ip ← context "local-ipv4s returned an empty response" (lines ips_raw).head?
  pure ⟨device_number, eni_id, trim ip⟩

def fetchAllInterfaces (token : List Char) : NodeProgram (List IfaceInfo) := do
  let macs_raw ← fetchImdsPath token "network/interfaces/macs/"
  let macs := (macLines macs_raw).filter (!·.isEmpty)
  macs.mapM (fetchInterface token)

def Role.asStr : Role → String
  | .master => "master"
  | .backup => "backup"

def parseRole (role_str : List Char) : NodeProgram Role :=
  if role_str = "master".toList then pure .master
  else if role_str = "backup".toList then pure .backup
  else throw (.error [s!"Tag 'keepalived-role' has unexpected value '{String.ofList role_str}'. " ++
    "Expected 'master' or 'backup'."])

/-- The first three interfaces. -/
def threeOf : List IfaceInfo → NodeProgram (IfaceInfo × IfaceInfo × IfaceInfo)
  | outside :: inside :: sync :: _ => pure (outside, inside, sync)
  | ifaces => throw (.error ["Expected at least 3 network interfaces (eth0 + eth1 + eth2), " ++
    s!"found {ifaces.length}. Are both the inside and sync ENIs attached?"])

def resolveInstanceData : NodeProgram InstanceData := do
  let token ← fetchImdsToken
  let instance_id ← fetchImdsPath token "instance-id"
  let role_str ← fetchImdsTag token "keepalived-role"
  let role ← parseRole role_str
  let ifaces ← fetchAllInterfaces token
  let ifaces := ifaces.insertionSort fun i j => i.device_number ≤ j.device_number
  let (outside, inside, sync) ← threeOf ifaces
  let peer_sync_ip ← fetchImdsTag token "keepalived-peer-sync"
  let vip_outside ← inContext ("IMDS tag 'aeroftp-vip-outside' not found. Add it to the EC2 " ++
    "launch template (e.g. value: 172.16.29.100).") (fetchImdsTag token "aeroftp-vip-outside")
  let vip_inside ← inContext ("IMDS tag 'aeroftp-vip-inside' not found. Add it to the EC2 " ++
    "launch template (e.g. value: 172.16.32.10).") (fetchImdsTag token "aeroftp-vip-inside")
  let slot_network ← inContext ("Failed to resolve slot network from IMDS. Ensure the " ++
    "aeroftp-slot-offset tag and eth1 subnet CIDR are available.") slotNetworkFromImds
  let slot_count_str ← inContext ("IMDS tag 'aeroftp-slot-count' not found. Add it to the " ++
    "load balancer launch template (e.g. value: 20).") (fetchImdsTag token "aeroftp-slot-count")
  let slot_count ← context s!"Invalid aeroftp-slot-count value: '{String.ofList slot_count_str}'"
    (parseU32 (trim slot_count_str))
  pure ⟨instance_id, role, outside, inside, peer_sync_ip, sync, vip_outside, vip_inside,
    slot_network, slot_count⟩

end Instance

section Metadata

variable (metadata : String → Option (List Char))

/-- A text that the metadata service replies is the one that the metadata have. -/
def Reads : (op : NodeOp) → op.Reply → Prop
  | .getPath _ path, .body text => metadata path = some text
  | _, _ => True

/-- A value of the metadata, without the blanks around it. -/
def value (path : String) : Option (List Char) := (metadata path).map trim

/-- The MACs of the interfaces. -/
def macs : List (List Char) :=
  (((value metadata "network/interfaces/macs/").map macLines).getD []).filter (!·.isEmpty)

def deviceNumber (mac : List Char) : Option ℕ :=
  (value metadata (macPath mac "device-number")).bind parseU32

/-- The interface is the one with this MAC. -/
structure Shows (mac : List Char) (iface : IfaceInfo) : Prop where
  device_number : deviceNumber metadata mac = some iface.device_number
  eni_id : value metadata (macPath mac "interface-id") = some iface.eni_id
  primary_ip : ∃ ips_raw line, value metadata (macPath mac "local-ipv4s") = some ips_raw ∧
    (lines ips_raw).head? = some line ∧ iface.primary_ip = trim line

/-- The network is the subnet of the interface with this MAC, and its offset is the one of the
tag. -/
structure Subnet (mac : List Char) (net : DiscoveredNetwork) : Prop where
  cidr : ∃ cidr base_str prefix_str,
    value metadata (macPath mac "subnet-ipv4-cidr-block") = some cidr ∧
    splitOnce '/' cidr = some (base_str, prefix_str) ∧ Ipv4Addr.parse base_str = some net.base ∧
    parseU8 prefix_str = some net.prefix_len
  offset : ∃ offset_raw, value metadata "tags/instance/aeroftp-slot-offset" = some offset_raw ∧
    parseU32 offset_raw = some net.offset

variable {metadata} {token : List Char}

theorem trim_of_value {path : String} {text : List Char} (h : value metadata path = some text) :
    trim text = text := by
  obtain ⟨raw, -, rfl⟩ := Option.map_eq_some_iff.mp h
  exact trim_trim raw

theorem yields_imdsText {send status read : String} {token : List Char} {path : String}
    {reply : ImdsReply} (h : Reads metadata (.getPath token path) reply) :
    Yields (Reads metadata) (fun text => metadata path = some text)
      (imdsText send status read reply) := by
  cases reply with
  | body text => exact yields_pure h
  | unreachable cause => exact yields_throw _
  | refused cause => exact yields_throw _
  | unreadable cause => exact yields_throw _

theorem yields_fetchImdsToken : Yields (Reads metadata) (fun _ => True) fetchImdsToken :=
  fun _ _ _ _ => trivial

theorem yields_fetchImdsPath (path : String) : Yields (Reads metadata)
    (fun text => value metadata path = some text) (fetchImdsPath token path) := by
  refine Yields.bind (yields_perform (Q := Reads metadata (.getPath token path)) fun r hr => hr)
    fun reply hreply => ?_
  refine (yields_imdsText hreply).bind fun text htext => yields_pure ?_
  rw [value, htext, Option.map_some]

theorem yields_context {α : Type} (message : String) (o : Option α) :
    Yields (Reads metadata) (fun a => o = some a) (context message o) := by
  cases o with
  | none => exact yields_throw _
  | some a => exact yields_pure rfl

theorem yields_fetchImdsTag (tag_key : String) : Yields (Reads metadata)
    (fun text => value metadata (tagPath tag_key) = some text)
    (fetchImdsTag token tag_key) :=
  (yields_fetchImdsPath _).adapt _

theorem yields_fetchInterface (mac : List Char) :
    Yields (Reads metadata) (Shows metadata mac) (fetchInterface token mac) := by
  refine ((yields_fetchImdsPath _).adapt _).bind fun number hnumber => ?_
  refine (yields_context _ _).bind fun device_number hdevice => ?_
  refine ((yields_fetchImdsPath _).adapt _).bind fun eni_id heni => ?_
  refine ((yields_fetchImdsPath _).adapt _).bind fun ips_raw hips => ?_
  refine (yields_context _ _).bind fun line hline => ?_
  exact yields_pure ⟨by rw [deviceNumber, hnumber, Option.bind_some, hdevice], heni,
    ips_raw, line, hips, hline, rfl⟩

/-- All interfaces are read, in the order of the listing. -/
theorem yields_fetchAllInterfaces : Yields (Reads metadata)
    (List.Forall₂ (Shows metadata) (macs metadata)) (fetchAllInterfaces token) := by
  refine (yields_fetchImdsPath _).bind fun macs_raw hmacs => ?_
  have hlisted : macs metadata = (macLines macs_raw).filter (!·.isEmpty) := by
    rw [macs, hmacs]
    rfl
  rw [hlisted]
  exact Yields.mapM fun mac _ => yields_fetchInterface mac

/-- The MAC that the search finds is a listed one with the device number 1. -/
theorem yields_findEth1 (ms : List (List Char)) : Yields (Reads metadata)
    (fun found => ∀ mac, found = some mac → mac ∈ ms.filter (!·.isEmpty) ∧
      deviceNumber metadata mac = some 1) (findEth1 token ms) := by
  induction ms with
  | nil => exact yields_pure (by simp)
  | cons m ms ih =>
    rw [findEth1]
    split
    next hempty => simpa [hempty] using ih
    next hne =>
      refine Yields.bind (Q := fun dev => value metadata (macPath m "device-number") = some dev ∨
        dev = []) ?_ fun dev hdev => ?_
      · exact ((yields_fetchImdsPath _).mono fun _ h => .inl h).recover (.inr rfl)
      · split
        next hone =>
          refine yields_pure fun mac hmac => ?_
          obtain rfl := Option.some.inj hmac
          rcases hdev with hdev | rfl
          · rw [trim_of_value hdev] at hone
            subst hone
            refine ⟨by simpa using hne, ?_⟩
            rw [deviceNumber, hdev]
            decide
          · cases hone
        next =>
          refine ih.mono fun found hfound mac hmac => ?_
          obtain ⟨hmem, hnumber⟩ := hfound mac hmac
          rw [List.filter_cons, if_pos (by simpa using hne)]
          exact ⟨List.mem_cons_of_mem m hmem, hnumber⟩

/-- The network is the subnet of an interface with the device number 1. -/
theorem yields_slotNetworkFromImds : Yields (Reads metadata)
    (fun net => ∃ mac ∈ macs metadata, deviceNumber metadata mac = some 1 ∧
      Subnet metadata mac net) slotNetworkFromImds := by
  refine yields_fetchImdsToken.bind fun token _ => ?_
  refine (yields_fetchImdsPath _).bind fun macs_raw hmacs => ?_
  refine (yields_findEth1 _).bind fun eth1_mac heth1 => ?_
  refine (yields_context _ _).bind fun mac hmac => ?_
  refine ((yields_fetchImdsPath _).adapt _).bind fun cidr hcidr => ?_
  refine (yields_context _ _).bind fun split hsplit => ?_
  obtain ⟨base_str, prefix_str⟩ := split
  refine (yields_context _ _).bind fun base hbase => ?_
  refine (yields_context _ _).bind fun prefix_len hprefix => ?_
  refine ((yields_fetchImdsPath _).adapt _).bind fun offset_raw hoffset => ?_
  refine (yields_context _ _).bind fun offset hparse => yields_pure ?_
  rw [trim_of_value hcidr] at hsplit
  rw [trim_of_value hoffset] at hparse
  have hlisted : macs metadata = (macLines macs_raw).filter (!·.isEmpty) := by
    rw [macs, hmacs]
    rfl
  obtain ⟨hmem, hnumber⟩ := heth1 mac hmac
  exact ⟨mac, hlisted ▸ hmem, hnumber, ⟨cidr, base_str, prefix_str, hcidr, hsplit, hbase, hprefix⟩,
    offset_raw, hoffset, hparse⟩

end Metadata

section Resolved

variable {metadata : String → Option (List Char)}

/-- What EC2 says of the interfaces of an instance: no two have one device number, and one has the
number 0. -/
structure Attached (metadata : String → Option (List Char)) : Prop where
  distinct : ((macs metadata).map (deviceNumber metadata)).Nodup
  primary : some 0 ∈ (macs metadata).map (deviceNumber metadata)

/-- The tags that an instance is described with. -/
structure Tagged (metadata : String → Option (List Char)) (data : InstanceData) : Prop where
  instance_id : value metadata "instance-id" = some data.instance_id
  role : value metadata (tagPath "keepalived-role") = some data.role.asStr.toList
  peer_sync_ip : value metadata (tagPath "keepalived-peer-sync") = some data.peer_sync_ip
  vip_outside : value metadata (tagPath "aeroftp-vip-outside") = some data.vip_outside
  vip_inside : value metadata (tagPath "aeroftp-vip-inside") = some data.vip_inside
  slot_count : (value metadata (tagPath "aeroftp-slot-count")).bind parseU32 =
    some data.slot_count

/-- What an instance is resolved to: the interfaces with the numbers 0 and 1 and the one with the
next number, and the subnet of the interface with the number 1. -/
structure Resolved (metadata : String → Option (List Char)) (data : InstanceData) : Prop
    extends Tagged metadata data where
  outside : ∃ mac ∈ macs metadata, Shows metadata mac data.outside ∧ data.outside.device_number = 0
  inside : ∃ mac ∈ macs metadata, Shows metadata mac data.inside ∧
    data.inside.device_number = 1 ∧ Subnet metadata mac data.slot_network
  sync : ∃ mac ∈ macs metadata, Shows metadata mac data.sync ∧ 2 ≤ data.sync.device_number ∧
    ∀ other ∈ macs metadata, ∀ number, deviceNumber metadata other = some number →
      2 ≤ number → data.sync.device_number ≤ number

theorem yields_parseRole (role_str : List Char) : Yields (Reads metadata)
    (fun role => role_str = role.asStr.toList) (parseRole role_str) := by
  unfold parseRole
  split
  · exact yields_pure (by assumption)
  · split
    · exact yields_pure (by assumption)
    · exact yields_throw _

theorem yields_threeOf (ifaces : List IfaceInfo) : Yields (Reads metadata)
    (fun three => ∃ rest, ifaces = three.1 :: three.2.1 :: three.2.2 :: rest) (threeOf ifaces) := by
  unfold threeOf
  split
  next outside inside sync rest => exact yields_pure ⟨rest, rfl⟩
  next => exact yields_throw _

/-- What `resolve_instance_data` reads. -/
theorem yields_resolveInstanceData : Yields (Reads metadata)
    (fun data => Tagged metadata data ∧ (∃ ifaces rest,
      List.Forall₂ (Shows metadata) (macs metadata) ifaces ∧
      ifaces.insertionSort (fun i j => i.device_number ≤ j.device_number) =
        data.outside :: data.inside :: data.sync :: rest) ∧
      ∃ mac ∈ macs metadata, deviceNumber metadata mac = some 1 ∧
        Subnet metadata mac data.slot_network) resolveInstanceData := by
  refine yields_fetchImdsToken.bind fun token _ => ?_
  refine (yields_fetchImdsPath _).bind fun instance_id hid => ?_
  refine (yields_fetchImdsTag _).bind fun role_str hrole => ?_
  refine (yields_parseRole _).bind fun role hparse => ?_
  refine yields_fetchAllInterfaces.bind fun ifaces hifaces => ?_
  refine (yields_threeOf _).bind fun three hthree => ?_
  obtain ⟨outside, inside, sync⟩ := three
  obtain ⟨rest, hsorted⟩ := hthree
  refine (yields_fetchImdsTag _).bind fun peer_sync_ip hpeer => ?_
  refine ((yields_fetchImdsTag _).adapt _).bind fun vip_outside houtside => ?_
  refine ((yields_fetchImdsTag _).adapt _).bind fun vip_inside hinside => ?_
  refine (yields_slotNetworkFromImds.adapt _).bind fun slot_network hnetwork => ?_
  refine ((yields_fetchImdsTag _).adapt _).bind fun slot_count_str hcount => ?_
  refine (yields_context _ _).bind fun slot_count hslots => yields_pure ?_
  rw [trim_of_value hcount] at hslots
  exact ⟨⟨hid, hparse ▸ hrole, hpeer, houtside, hinside, by rw [hcount]; exact hslots⟩,
    ⟨ifaces, rest, hifaces, hsorted⟩, hnetwork⟩

/-- A strictly sorted list of numbers that has 0 and 1 begins with them. -/
theorem zero_one_cons {l : List ℕ} (hsorted : l.Pairwise (· < ·)) (h₀ : 0 ∈ l) (h₁ : 1 ∈ l) :
    ∃ rest, l = 0 :: 1 :: rest := by
  cases hsorted with
  | nil => cases h₀
  | @cons a l ha hl =>
    have ha₀ : a = 0 := by
      rcases List.mem_cons.mp h₀ with h | h
      · exact h.symm
      · exact absurd (ha 0 h) (Nat.not_lt_zero a)
    subst ha₀
    have hmem : 1 ∈ l := (List.mem_cons.mp h₁).resolve_left (by decide)
    cases hl with
    | nil => cases hmem
    | @cons b l hb hl =>
      have hpos := ha b List.mem_cons_self
      rcases List.mem_cons.mp hmem with h | h
      · exact ⟨l, by rw [← h]⟩
      · have hlt := hb 1 h
        omega

section Numbers

variable {mac mac' : List Char} {iface : IfaceInfo} {ifaces sorted : List IfaceInfo}

theorem exists_mac (h : List.Forall₂ (Shows metadata) (macs metadata) ifaces)
    (hmem : iface ∈ ifaces) : ∃ mac ∈ macs metadata, Shows metadata mac iface := by
  generalize macs metadata = ms at h ⊢
  induction h with
  | nil => cases hmem
  | cons hshows _ ih =>
    rcases List.mem_cons.mp hmem with rfl | hmem
    · exact ⟨_, List.mem_cons_self, hshows⟩
    · obtain ⟨mac, hmac, hshows⟩ := ih hmem
      exact ⟨mac, List.mem_cons_of_mem _ hmac, hshows⟩

theorem map_deviceNumber (h : List.Forall₂ (Shows metadata) (macs metadata) ifaces) :
    (macs metadata).map (deviceNumber metadata) =
      (ifaces.map IfaceInfo.device_number).map some := by
  generalize macs metadata = ms at h ⊢
  induction h with
  | nil => rfl
  | cons hshows _ ih => rw [List.map_cons, List.map_cons, List.map_cons, hshows.device_number, ih]

theorem mem_numbers (h : List.Forall₂ (Shows metadata) (macs metadata) ifaces)
    (hperm : sorted.Perm ifaces) {number : ℕ} :
    number ∈ sorted.map IfaceInfo.device_number ↔
      some number ∈ (macs metadata).map (deviceNumber metadata) := by
  rw [(hperm.map _).mem_iff, map_deviceNumber h,
    List.mem_map_of_injective (Option.some_injective ℕ)]

/-- The device numbers of the sorted interfaces are strictly sorted. -/
theorem numbers_sorted (hattached : Attached metadata)
    (h : List.Forall₂ (Shows metadata) (macs metadata) ifaces) (hperm : sorted.Perm ifaces)
    (hsorted : sorted.Pairwise fun i j => i.device_number ≤ j.device_number) :
    (sorted.map IfaceInfo.device_number).Pairwise (· < ·) := by
  have hnodup : (sorted.map IfaceInfo.device_number).Nodup := by
    have hdistinct := hattached.distinct
    rw [map_deviceNumber h] at hdistinct
    exact (hperm.map _).nodup_iff.mpr hdistinct.of_map
  have hle : (sorted.map IfaceInfo.device_number).Pairwise (· ≤ ·) := List.pairwise_map.mpr hsorted
  exact hle.imp₂ (fun a b hab hne => lt_of_le_of_ne hab hne) hnodup

/-- A device number belongs to one MAC. -/
theorem mac_unique (hattached : Attached metadata) (hmac : mac ∈ macs metadata)
    (hmac' : mac' ∈ macs metadata) (heq : deviceNumber metadata mac = deviceNumber metadata mac') :
    mac = mac' :=
  List.inj_on_of_nodup_map hattached.distinct hmac hmac' heq

end Numbers

/-- The subnet has an interface with the number 1, so the sorted numbers begin with 0 and 1. -/
theorem Resolved.of_sorted {data : InstanceData} {ifaces rest : List IfaceInfo} {eth1 : List Char}
    (hattached : Attached metadata) (htagged : Tagged metadata data)
    (hshows : List.Forall₂ (Shows metadata) (macs metadata) ifaces)
    (heq : ifaces.insertionSort (fun i j => i.device_number ≤ j.device_number) =
      data.outside :: data.inside :: data.sync :: rest)
    (heth1 : eth1 ∈ macs metadata) (hone : deviceNumber metadata eth1 = some 1)
    (hsubnet : Subnet metadata eth1 data.slot_network) : Resolved metadata data := by
  have hperm : (data.outside :: data.inside :: data.sync :: rest).Perm ifaces :=
    heq ▸ List.perm_insertionSort _ ifaces
  have hsorted : (data.outside :: data.inside :: data.sync :: rest).Pairwise
      fun i j => i.device_number ≤ j.device_number :=
    heq ▸ List.pairwise_insertionSort _ ifaces
  have hnumbers := numbers_sorted hattached hshows hperm hsorted
  have hzero := (mem_numbers hshows hperm).mpr hattached.primary
  have hone' := (mem_numbers hshows hperm).mpr (List.mem_map.mpr ⟨eth1, heth1, hone⟩)
  obtain ⟨numbers, hcons⟩ := zero_one_cons hnumbers hzero hone'
  obtain ⟨houtside, hinside, -⟩ : data.outside.device_number = 0 ∧
      data.inside.device_number = 1 ∧ _ := by simpa using hcons
  have hshown : ∀ iface ∈ data.outside :: data.inside :: data.sync :: rest,
      ∃ mac ∈ macs metadata, Shows metadata mac iface :=
    fun iface hmem => exists_mac hshows (hperm.mem_iff.mp hmem)
  obtain ⟨mac₀, hmac₀, hshows₀⟩ := hshown data.outside (by simp)
  obtain ⟨mac₁, hmac₁, hshows₁⟩ := hshown data.inside (by simp)
  obtain ⟨mac₂, hmac₂, hshows₂⟩ := hshown data.sync (by simp)
  obtain rfl : mac₁ = eth1 :=
    mac_unique hattached hmac₁ heth1 (by rw [hshows₁.device_number, hinside, hone])
  refine ⟨htagged, ⟨mac₀, hmac₀, hshows₀, houtside⟩, ⟨mac₁, hmac₁, hshows₁, hinside, hsubnet⟩,
    mac₂, hmac₂, hshows₂, ?_, fun other hother number hnumber hnext => ?_⟩
  · have hlt : data.inside.device_number < data.sync.device_number := by
      simp only [List.map_cons, List.pairwise_cons] at hnumbers
      exact hnumbers.2.1 _ List.mem_cons_self
    omega
  · have hmem := (mem_numbers hshows hperm).mpr (List.mem_map.mpr ⟨other, hother, hnumber⟩)
    rw [List.map_cons, List.map_cons, houtside, hinside] at hmem
    have hrest := (List.mem_cons.mp ((List.mem_cons.mp hmem).resolve_left (by omega))).resolve_left
      (by omega)
    rw [List.map_cons] at hrest
    rcases List.mem_cons.mp hrest with rfl | hrest
    · exact le_rfl
    · simp only [List.map_cons, List.pairwise_cons] at hnumbers
      exact (hnumbers.2.2.1 _ hrest).le

/-- Whatever requests fail on the way, an instance that is returned is the one that the metadata
describe. -/
theorem resolve_instance_data_resolved {t : List (Event NodeOp NodeOp.Reply)} {data : InstanceData}
    (hattached : Attached metadata) (hrun : Exec resolveInstanceData.run t (.ok data))
    (hreads : ∀ ev ∈ t, Reads metadata ev.op ev.reply) : Resolved metadata data := by
  obtain ⟨htagged, ⟨ifaces, rest, hshows, heq⟩, eth1, heth1, hone, hsubnet⟩ :=
    yields_resolveInstanceData t data hrun hreads
  exact .of_sorted hattached htagged hshows heq heth1 hone hsubnet

/-- The metadata of a node whose interfaces are not listed in the order of their numbers. -/
def nodeMetadata (role : Role) (path : String) : Option (List Char) :=
  (List.lookup path [("instance-id", "i-" ++ role.asStr), ("mac", "02:aa"),
    ("network/interfaces/macs/", "02:bb/\n02:cc/\n02:aa/\n"),
    ("network/interfaces/macs/02:aa/device-number", "0"),
    ("network/interfaces/macs/02:aa/interface-id", "eni-a-" ++ role.asStr),
    ("network/interfaces/macs/02:aa/local-ipv4s", "10.0.0.4\n10.0.0.100"),
    ("network/interfaces/macs/02:bb/device-number", "1"),
    ("network/interfaces/macs/02:bb/interface-id", "eni-b-" ++ role.asStr),
    ("network/interfaces/macs/02:bb/local-ipv4s", "10.0.1.4"),
    ("network/interfaces/macs/02:bb/subnet-ipv4-cidr-block", "10.0.1.0/24"),
    ("network/interfaces/macs/02:cc/device-number", "2"),
    ("network/interfaces/macs/02:cc/interface-id", "eni-c-" ++ role.asStr),
    ("network/interfaces/macs/02:cc/local-ipv4s", "10.0.2.4"),
    ("tags/instance/keepalived-role", role.asStr),
    ("tags/instance/keepalived-peer-sync", "10.0.2.5"),
    ("tags/instance/aeroftp-vip-outside", "10.0.0.100"),
    ("tags/instance/aeroftp-vip-inside", "10.0.1.100"),
    ("tags/instance/aeroftp-slot-offset", "50"), ("tags/instance/aeroftp-slot-count", "20")]).map
    String.toList

/-- A node on which every request succeeds. -/
def answersOf (metadata : String → Option (List Char)) : (op : NodeOp) → op.Reply
  | .putToken => .body "token".toList
  | .getPath _ path => ((metadata path).map .body).getD (.refused ["404 Not Found"])
  | .fetchImdsCredentials => .ok ⟨"key", "secret", some "session"⟩
  | .awsQuery .. => .ok "<return>true</return>".toList
  | .log _ => true

theorem reads_answersOf (op : NodeOp) : Reads metadata op (answersOf metadata op) := by
  cases op with
  | getPath token path => cases hpath : metadata path <;> simp [answersOf, Reads, hpath]
  | _ => trivial

def resolving (role : Role) : List (Event NodeOp NodeOp.Reply) × Except Failure InstanceData :=
  answering (answersOf (nodeMetadata role)) resolveInstanceData.run

theorem resolving_isSome (role : Role) : (resolving role).2.toOption.isSome = true := by
  cases role <;> decide +kernel

/-- What the node is resolved to. -/
def nodeData (role : Role) : InstanceData :=
  (resolving role).2.toOption.get (resolving_isSome role)

theorem exec_resolving (role : Role) :
    Exec resolveInstanceData.run (resolving role).1 (.ok (nodeData role)) := by
  have hget : (resolving role).2.toOption = some (nodeData role) := (Option.some_get _).symm
  have hok : (resolving role).2 = .ok (nodeData role) := by
    cases hresult : (resolving role).2 with
    | error e =>
      rw [hresult] at hget
      cases hget
    | ok data =>
      rw [hresult] at hget
      rw [Option.some.inj hget]
  exact hok ▸ exec_answering _ _

theorem reads_resolving (role : Role) :
    ∀ ev ∈ (resolving role).1, Reads (nodeMetadata role) ev.op ev.reply :=
  forall_mem_answering (P := fun ev => Reads (nodeMetadata role) ev.op ev.reply) reads_answersOf _

theorem attached_nodeMetadata (role : Role) : Attached (nodeMetadata role) := by
  cases role <;> exact ⟨by decide +kernel, by decide +kernel⟩

theorem resolve_instance_data_resolved_master :
    Resolved (nodeMetadata .master) (nodeData .master) :=
  resolve_instance_data_resolved (attached_nodeMetadata _) (exec_resolving _) (reads_resolving _)

end Resolved

end Aerosuite.Pulse.Node
