import Aerosuite.Library.Program
import Aerosuite.Pool.Redis
import Aerosuite.Scale.State

/-! What `aeroscale` does to the outside: Redis commands, the weight files, the kernel's tables, the
requests to AWS and the role check.  Every operation may fail.  An error is its text, to which a
context is put in front.  Clocks are arguments of the passes, and logging is left out. -/

namespace Aerosuite.Scale

open Pool

/-- The files of a directory, and the error that ended its listing early. -/
structure DirListing where
  names : List String
  failure : Option String

/-- The operations of the daemon. -/
inductive Eff where
  | redis (c : Cmd ℕ)
  | readDir
  | readFile (name : String)
  | writeFile (name value : String)
  | readIpvs
  | readNetDev
  | describeAsg
  | terminateInstance (instance_id : String) (decrement : Bool)
  | setDesired (desired : ℕ)
  | ipAddrShow
  | subscribe
  | nextMessage
  deriving DecidableEq

/-- A write of `release_slot`. -/
def releases : Cmd ℕ → Bool
  | .del (.owner _) | .zrem .leases _ | .zadd .available .. => true
  | _ => false

/-- The operations that are for the master only: the termination of an instance, a new desired
capacity, and the writes of a slot release. -/
def Eff.acts : Eff → Bool
  | .terminateInstance .. | .setDesired _ => true
  | .redis c => releases c
  | _ => false

/-- What an operation replies.  `ipAddrShow` replies the output of a successful `ip addr show`, and
`nextMessage` a message on `asg-change`, an error for one that cannot be parsed, and nothing when
the stream has ended. -/
abbrev Eff.Reply : Eff → Type
  | .redis c => Except String c.Reply
  | .readDir => Except String DirListing
  | .readFile _ | .readIpvs | .readNetDev => Except String String
  | .writeFile .. | .terminateInstance .. | .setDesired _ | .subscribe => Except String Unit
  | .describeAsg => Except String (List AsgGroup)
  | .ipAddrShow => Option String
  | .nextMessage => Option (Except String AsgChangeMsg)

abbrev Daemon := Program Eff Eff.Reply

/-- The program that performs one operation. -/
abbrev eff (e : Eff) : Daemon e.Reply := Program.perform e

/-- `?`: the program goes on with a value, and an error ends it. -/
def andThen {α β : Type} (p : Daemon (Except String α)) (f : α → Daemon (Except String β)) :
    Daemon (Except String β) :=
  p >>= fun
    | .ok a => f a
    | .error e => pure (.error e)

/-- `context`. -/
def context {α : Type} (text : String) (p : Daemon (Except String α)) :
    Daemon (Except String α) :=
  p >>= fun
    | .ok a => pure (.ok a)
    | .error e => pure (.error s!"{text}: {e}")

/-- The weight file of a backend. -/
def weightFile (ip : Ipv4Addr) : String :=
  "backend-" ++ String.ofList ip.display ++ ".weight"

/-- The part of a file name between `backend-` and `.weight`. -/
def weightFileIp (name : String) : Option String :=
  ((Text.stripPrefix "backend-".toList name.toList).bind
    (Text.stripSuffix ".weight".toList)).map String.ofList

/-- `write_weight`. -/
def writeWeight (ip : Ipv4Addr) (value : String) (dry_run : Bool) :
    Daemon (Except String Unit) :=
  if dry_run then pure (.ok ())
  else
    context s!"Cannot write weight file: {weightFile ip}" (eff (.writeFile (weightFile ip) value))

/-- `terminate_instance` of the cleanup. -/
def terminateInstance (instance_id : String) (dry_run decrement : Bool) :
    Daemon (Except String Unit) :=
  if dry_run then pure (.ok ()) else eff (.terminateInstance instance_id decrement)

/-- A reply to a Redis command that reports nothing. -/
def emptyReply : (c : Cmd ℕ) → c.Reply
  | .zscore .. | .zpopmin _ | .get _ => none
  | .zaddNX .. => (0 : ℕ)
  | .zrangebyscore .. | .zrangeWithScores _ => []
  | .zadd .. | .zrem .. | .set .. | .del _ | .publish _ => ()

/-- Replies with which every request succeeds. -/
def okReply : (e : Eff) → e.Reply
  | .redis c => .ok (emptyReply c)
  | .readDir => .ok ⟨[], none⟩
  | .readFile _ | .readIpvs | .readNetDev => .ok ""
  | .writeFile .. | .terminateInstance .. | .setDesired _ | .subscribe => .ok ()
  | .describeAsg => .ok []
  | .ipAddrShow | .nextMessage => none

section Lemmas

open Program

variable {α β : Type}

@[simp] theorem andThen_ret_ok (a : α) (f : α → Daemon (Except String β)) :
    andThen (.ret (.ok a)) f = f a := rfl

@[simp] theorem andThen_ret_error (e : String) (f : α → Daemon (Except String β)) :
    andThen (.ret (.error e)) f = .ret (.error e) := rfl

theorem exec_andThen {p : Daemon (Except String α)} {f : α → Daemon (Except String β)}
    {t : List (Event Eff Eff.Reply)} {r : Except String β} :
    Exec (andThen p f) t r ↔
      (∃ t₁ a t₂, t = t₁ ++ t₂ ∧ Exec p t₁ (.ok a) ∧ Exec (f a) t₂ r) ∨
        ∃ e, Exec p t (.error e) ∧ r = .error e := by
  rw [andThen, exec_bind]
  constructor
  · rintro ⟨t₁, res, t₂, rfl, h₁, h₂⟩
    cases res with
    | ok a => exact .inl ⟨t₁, a, t₂, rfl, h₁, h₂⟩
    | error e =>
      obtain ⟨rfl, rfl⟩ := exec_ret.mp h₂
      exact .inr ⟨e, by simpa using h₁, rfl⟩
  · rintro (⟨t₁, a, t₂, rfl, h₁, h₂⟩ | ⟨e, h, rfl⟩)
    · exact ⟨t₁, .ok a, t₂, rfl, h₁, h₂⟩
    · exact ⟨t, .error e, [], by simp, h, .ret _⟩

theorem exec_context {text : String} {p : Daemon (Except String α)}
    {t : List (Event Eff Eff.Reply)} {r : Except String α} :
    Exec (context text p) t r ↔
      ∃ r', Exec p t r' ∧ r = r'.mapError fun e => s!"{text}: {e}" := by
  rw [context, exec_bind]
  constructor
  · rintro ⟨t₁, res, t₂, rfl, h₁, h₂⟩
    cases res <;> obtain ⟨rfl, rfl⟩ := exec_ret.mp h₂ <;> exact ⟨_, by simpa using h₁, rfl⟩
  · rintro ⟨r', h, rfl⟩
    refine ⟨t, r', [], by simp, h, ?_⟩
    cases r' <;> exact .ret _

theorem Always.andThen {P : Eff → Prop} {p : Daemon (Except String α)}
    {f : α → Daemon (Except String β)} (hp : p.Always P) (hf : ∀ a, (f a).Always P) :
    (andThen p f).Always P :=
  Always.bind hp fun res => by
    cases res with
    | ok a => exact hf a
    | error e => trivial

theorem Always.context {P : Eff → Prop} {text : String} {p : Daemon (Except String α)}
    (hp : p.Always P) : (context text p).Always P :=
  Always.bind hp fun res => by cases res <;> trivial

/-- The request that an event records succeeded: a Redis command or the writing of a file. -/
def Succeeded : Event Eff Eff.Reply → Prop
  | ⟨.redis _, r⟩ => r.isOk
  | ⟨.writeFile .., r⟩ => r.isOk
  | _ => True

/-- AWS accepted the request that an event records. -/
def Accepted : Event Eff Eff.Reply → Prop
  | ⟨.terminateInstance .., r⟩ => r.isOk
  | ⟨.setDesired _, r⟩ => r.isOk
  | _ => True

theorem succeeded_okReply (e : Eff) : Succeeded ⟨e, okReply e⟩ := by
  cases e <;> trivial

theorem accepted_okReply (e : Eff) : Accepted ⟨e, okReply e⟩ := by
  cases e <;> trivial

theorem exists_exec_ok (p : Daemon α) : ∃ t a, Exec p t a ∧ ∀ ev ∈ t, Succeeded ev :=
  ⟨_, _, exec_answering okReply p, forall_mem_answering succeeded_okReply p⟩

theorem exec_redis {c : Cmd ℕ} {text : String} {t : List (Event Eff Eff.Reply)}
    {r : Except String c.Reply} (h : Exec (Scale.context text (eff (.redis c))) t r)
    (hok : ∀ ev ∈ t, Succeeded ev) : t.map Event.op = [.redis c] ∧ ∃ a, r = .ok a := by
  obtain ⟨r', h', rfl⟩ := exec_context.mp h
  obtain rfl := exec_perform.mp h'
  have hr : r'.isOk := hok _ (List.mem_singleton.mpr rfl)
  cases r' with
  | ok a => exact ⟨rfl, a, rfl⟩
  | error e => cases hr

theorem exec_writeWeight {ip : Ipv4Addr} {value : String} {t : List (Event Eff Eff.Reply)}
    {r : Except String Unit} (h : Exec (writeWeight ip value false) t r)
    (hok : ∀ ev ∈ t, Succeeded ev) :
    t.map Event.op = [.writeFile (weightFile ip) value] ∧ ∃ a, r = .ok a := by
  obtain ⟨r', h', rfl⟩ := exec_context.mp h
  obtain rfl := exec_perform.mp h'
  have hr : r'.isOk := hok _ (List.mem_singleton.mpr rfl)
  cases r' with
  | ok a => exact ⟨rfl, a, rfl⟩
  | error e => cases hr

theorem exec_andThen_ok {p : Daemon (Except String α)} {f : α → Daemon (Except String β)}
    {ops : List Eff} {t : List (Event Eff Eff.Reply)} {r : Except String β}
    (h : Exec (andThen p f) t r) (hok : ∀ ev ∈ t, Succeeded ev)
    (hp : ∀ {t' r'}, Exec p t' r' → (∀ ev ∈ t', Succeeded ev) →
      t'.map Event.op = ops ∧ ∃ a, r' = .ok a) :
    ∃ a t₂, t.map Event.op = ops ++ t₂.map Event.op ∧ Exec (f a) t₂ r ∧
      ∀ ev ∈ t₂, Succeeded ev := by
  rcases exec_andThen.mp h with ⟨t₁, a, t₂, rfl, h₁, h₂⟩ | ⟨e, he, -⟩
  · obtain ⟨hops, -⟩ := hp h₁ fun ev hev => hok ev (List.mem_append_left _ hev)
    exact ⟨a, t₂, by rw [List.map_append, hops], h₂,
      fun ev hev => hok ev (List.mem_append_right _ hev)⟩
  · obtain ⟨-, a, ha⟩ := hp he hok
    cases ha

theorem weightFile_injOn {ip ip' : Ipv4Addr} (h : ip < 2 ^ 32) (h' : ip' < 2 ^ 32)
    (heq : weightFile ip = weightFile ip') : ip = ip' := by
  have hlist := congrArg String.toList heq
  simp only [weightFile, String.toList_append, String.toList_ofList, List.append_cancel_left_eq,
    List.append_cancel_right_eq] at hlist
  exact display_injOn h h' hlist

theorem weightFileIp_weightFile (ip : Ipv4Addr) :
    weightFileIp (weightFile ip) = some (String.ofList ip.display) := by
  simp [weightFileIp, weightFile, Text.stripPrefix, Text.stripSuffix]

end Lemmas

end Aerosuite.Scale
