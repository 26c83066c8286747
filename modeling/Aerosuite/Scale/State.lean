import Aerosuite.Library.Text
import Mathlib.Data.List.Induction
import Mathlib.Data.List.Sort
import Mathlib.Data.String.Basic
import Mathlib.Data.Int.ModEq

/-! The data of `aeroscale`: IPv4 addresses, the slot network, and what a `SystemSnapshot` holds.
An `Ipv4Addr` is the number that it stands for, and the unsigned integers are natural numbers
whose sums wrap around where the release build lets them. -/

namespace Aerosuite.Scale

/-- An `Ipv4Addr` as the number that `u32::from` gives. -/
abbrev Ipv4Addr := ℕ

/-- `Display` of an address: its four octets in decimal. -/
def Ipv4Addr.display (ip : Ipv4Addr) : List Char :=
  let octet (n : ℕ) := Nat.toDigits 10 (n % 256)
  octet (ip / 2 ^ 24) ++ '.' :: octet (ip / 2 ^ 16) ++ '.' :: octet (ip / 2 ^ 8) ++ '.' :: octet ip

/-- An octet of an address: one to three digits without a leading zero. -/
def parseOctet (s : List Char) : Option ℕ :=
  if s.length ≤ 3 ∧ s.all Char.isDigit ∧ (s.head? = some '0' → s.length = 1) then Text.parseU8 s
  else none

/-- `FromStr` of an address. -/
def Ipv4Addr.parse (s : List Char) : Option Ipv4Addr := do
  let (a, s) ← Text.splitOnce '.' s
  let (b, s) ← Text.splitOnce '.' s
  let (c, d) ← Text.splitOnce '.' s
  let a ← parseOctet a
  let b ← parseOctet b
  let c ← parseOctet c
  let d ← parseOctet d
  pure (a * 2 ^ 24 + b * 2 ^ 16 + c * 2 ^ 8 + d)

/-- The addresses of the slots. -/
structure SlotNetwork where
  base : Ipv4Addr
  offset : ℕ

namespace SlotNetwork

/-- `ip_for_slot`, whose sum wraps around. -/
def ipForSlot (net : SlotNetwork) (slot : ℕ) : Ipv4Addr := (net.base + net.offset + slot) % 2 ^ 32

def slotForIp (net : SlotNetwork) (ip : Ipv4Addr) : Option ℕ :=
  let base := (net.base + net.offset) % 2 ^ 32
  if base ≤ ip then some (ip - base) else none

theorem ipForSlot_lt (net : SlotNetwork) (slot : ℕ) : net.ipForSlot slot < 2 ^ 32 :=
  Nat.mod_lt _ (by decide)

theorem ipForSlot_injOn (net : SlotNetwork) {m n : ℕ} (hm : m < 2 ^ 32) (hn : n < 2 ^ 32)
    (h : net.ipForSlot m = net.ipForSlot n) : m = n := by
  unfold ipForSlot at h
  generalize net.base + net.offset = first at h
  have hmod : (first + m) % 2 ^ 32 = (first + n) % 2 ^ 32 := h
  have hmn := Nat.ModEq.add_left_cancel' first hmod
  exact Nat.ModEq.eq_of_lt_of_lt hmn hm hn

end SlotNetwork

/-- The slots of the examples, from 10.0.0.20 on. -/
def exampleNet : SlotNetwork := ⟨167772160, 20⟩

def WEIGHT_ACTIVE : String := "0"
def WEIGHT_DRAINING : String := "-1"
def WEIGHT_DISABLED : String := "-2147483648"

/-- The state that the content of a weight file stands for. -/
inductive BackendState where
  | active
  | draining
  | disabled
  | unknown (value : String)
  deriving DecidableEq

def BackendState.fromWeightStr (s : String) : BackendState :=
  let other := String.ofList (Text.trim s.toList)
  if other = "0" then .active
  else if other = "-1" then .draining
  else if other = "-2147483648" then .disabled
  else .unknown other

/-- A lease of a slot, as the snapshot shows it. -/
structure SlotLease where
  slot : ℕ
  owner_instance_id : String
  expires_ms : ℕ
  deriving DecidableEq

def SlotLease.isExpired (l : SlotLease) (now_ms : ℕ) : Bool := l.expires_ms ≤ now_ms

structure AsgGroupInfo where
  name : String
  desired_capacity : ℤ
  min_size : ℤ
  max_size : ℤ
  deriving DecidableEq

def AsgGroupInfo.wouldViolateMin (g : AsgGroupInfo) : Bool := g.desired_capacity ≤ g.min_size

structure AsgInstance where
  instance_id : String
  lifecycle_state : String
  health_status : String
  deriving DecidableEq

def AsgInstance.isInService (i : AsgInstance) : Bool := i.lifecycle_state = "InService"

/-- A group as `asg::describe` reports it. -/
structure AsgGroup where
  name : String
  desired_capacity : ℤ
  min_size : ℤ
  max_size : ℤ
  instances : List AsgInstance

structure IpvsBackend where
  ip : Ipv4Addr
  active_connections : ℕ
  inactive_connections : ℕ
  deriving DecidableEq

structure BackendStatus where
  ip : Ipv4Addr
  slot : Option ℕ
  weight_state : BackendState
  ipvs : Option IpvsBackend
  lease : Option SlotLease
  deriving DecidableEq

structure WeightEntry where
  ip : Ipv4Addr
  state : BackendState
  deriving DecidableEq

/-- What one cycle sees of all subsystems. -/
structure SystemSnapshot where
  backends : List BackendStatus
  leases : List SlotLease
  asg : List AsgInstance
  asg_group : Option AsgGroupInfo
  ipvs : List IpvsBackend

def OWNER_MISSING : String := "(missing)"
def OWNER_UNKNOWN : String := "(unknown)"

section Addresses

theorem splitOnce_append {sep : Char} {s t : List Char} (h : sep ∉ s) :
    Text.splitOnce sep (s ++ sep :: t) = some (s, t) := by
  have hne : ∀ c ∈ s, (c != sep) = true := fun c hc => by
    simp only [bne_iff_ne]
    rintro rfl
    exact h hc
  rw [Text.splitOnce, List.dropWhile_append_of_pos hne, List.takeWhile_append_of_pos hne]
  simp

theorem parseOctet_toDigits {n : ℕ} (h : n < 256) : parseOctet (Nat.toDigits 10 n) = some n := by
  have hall : ∀ m < 256, (Nat.toDigits 10 m).length ≤ 3 ∧ (Nat.toDigits 10 m).all Char.isDigit ∧
      ((Nat.toDigits 10 m).head? = some '0' → (Nat.toDigits 10 m).length = 1) := by
    decide +kernel
  rw [parseOctet, if_pos (hall n h)]
  exact Text.parseUint_toDigits (by omega)

theorem dot_not_mem_toDigits (n : ℕ) : '.' ∉ Nat.toDigits 10 n := fun h => by
  have hdigit := Nat.isDigit_of_mem_toDigits (by decide) (by decide) h
  simp at hdigit

theorem parse_display {ip : Ipv4Addr} (h : ip < 2 ^ 32) : Ipv4Addr.parse ip.display = some ip := by
  have hmod : ∀ n : ℕ, parseOctet (Nat.toDigits 10 (n % 256)) = some (n % 256) :=
    fun n => parseOctet_toDigits (by omega)
  simp only [Ipv4Addr.parse, Ipv4Addr.display, List.append_assoc, List.cons_append,
    splitOnce_append (dot_not_mem_toDigits _), hmod, Option.bind_eq_bind, Option.bind_some,
    Option.pure_def, Option.some.injEq]
  unfold Ipv4Addr at *
  omega

theorem display_injOn {ip ip' : Ipv4Addr} (h : ip < 2 ^ 32) (h' : ip' < 2 ^ 32)
    (heq : ip.display = ip'.display) : ip = ip' := by
  have hparse := parse_display h
  rw [heq, parse_display h'] at hparse
  exact (Option.some.inj hparse).symm

theorem digitChar_of_isDigit {c : Char} (h : c.isDigit) :
    ∃ d < 10, c = Nat.digitChar d ∧ Text.toDigit 10 c = some d := by
  have hlt : c.toNat - 48 < 10 := by
    simp only [Char.isDigit, Bool.and_eq_true, decide_eq_true_eq] at h
    have h₂ : c.toNat ≤ 57 := h.2
    omega
  have hc : c = Nat.digitChar (c.toNat - 48) := by
    apply Char.toNat_inj.mp
    rw [Nat.toNat_digitChar_of_lt_ten hlt]
    simp only [Char.isDigit, Bool.and_eq_true, decide_eq_true_eq] at h
    have h₁ : 48 ≤ c.toNat := h.1
    omega
  have hdigit := Text.toDigit_digitChar hlt
  rw [← hc] at hdigit
  exact ⟨c.toNat - 48, hlt, hc, hdigit⟩

/-- Digits without a leading zero are the decimal text of their value. -/
theorem toDigits_of_digitsValue {s : List Char} (hne : s ≠ []) (hdigits : ∀ c ∈ s, c.isDigit)
    (hzero : s.head? = some '0' → s.length = 1) :
    ∃ n, Text.digitsValue 10 0 s = some n ∧ s = Nat.toDigits 10 n := by
  induction s using List.reverseRecOn with
  | nil => exact absurd rfl hne
  | append_singleton s c ih =>
    obtain ⟨d, hd, rfl, hvalue⟩ := digitChar_of_isDigit (hdigits c (by simp))
    rw [Text.digitsValue_append]
    cases s with
    | nil =>
      refine ⟨d, by simp [Text.digitsValue, hvalue], ?_⟩
      rw [Nat.toDigits_of_lt_base hd]
      rfl
    | cons a s =>
      have ha : a ≠ '0' := by
        rintro rfl
        have hlen := hzero rfl
        simp at hlen
      obtain ⟨m, hm, heq⟩ := ih (by simp) (fun c hc => hdigits c (List.mem_append_left _ hc))
        fun h => absurd (Option.some.inj h) ha
      have hpos : 0 < m := by
        by_contra hm0
        obtain rfl : m = 0 := by omega
        rw [Nat.toDigits_zero] at heq
        exact ha (List.cons.inj heq).1
      refine ⟨10 * m + d, by rw [hm]; simp [Text.digitsValue, hvalue, Nat.mul_comm], ?_⟩
      rw [← Nat.toDigits_append_toDigits (by decide) hpos hd, ← heq, Nat.toDigits_of_lt_base hd]

theorem parseOctet_eq_some {s : List Char} {n : ℕ} (h : parseOctet s = some n) :
    n < 256 ∧ s = Nat.toDigits 10 n := by
  unfold parseOctet at h
  split at h
  · next hs =>
    obtain ⟨-, hdigits, hzero⟩ := hs
    have hall : ∀ c ∈ s, c.isDigit := by simpa using hdigits
    have hle := Text.parseUint_le h
    cases s with
    | nil => cases h
    | cons c s =>
      have hc : c ≠ '+' := by
        rintro rfl
        have hdigit := hall '+' (by simp)
        simp at hdigit
      obtain ⟨m, hm, heq⟩ := toDigits_of_digitsValue (by simp) hall hzero
      have hprefix : Text.stripPrefix ['+'] (c :: s) = none := by
        simp [Text.stripPrefix, hc.symm]
      simp only [Text.parseU8, Text.parseUint, hprefix, Option.getD_none, hm] at h
      obtain ⟨hmn, -⟩ := Option.filter_eq_some_iff.mp h
      obtain rfl := Option.some.inj hmn
      exact ⟨by omega, heq⟩
  · cases h

theorem splitOnce_eq_some {sep : Char} {s a b : List Char}
    (h : Text.splitOnce sep s = some (a, b)) :
    s = a ++ sep :: b := by
  unfold Text.splitOnce at h
  cases hdrop : s.dropWhile (· != sep) with
  | nil => simp [hdrop] at h
  | cons c rest =>
    simp only [hdrop, Option.some.injEq, Prod.mk.injEq] at h
    obtain ⟨rfl, rfl⟩ := h
    have hc : c = sep := by
      have hhead := List.head_dropWhile_not (· != sep) (l := s) (by simp [hdrop])
      simpa [hdrop] using hhead
    subst hc
    rw [← hdrop]
    exact (List.takeWhile_append_dropWhile).symm

/-- Only the text of an address parses to it. -/
theorem parse_eq_some {s : List Char} {ip : Ipv4Addr} (h : Ipv4Addr.parse s = some ip) :
    ip < 2 ^ 32 ∧ s = ip.display := by
  simp only [Ipv4Addr.parse, Option.bind_eq_bind, Option.bind_eq_some_iff, Option.pure_def,
    Option.some.injEq, Prod.exists] at h
  obtain ⟨a, s₁, h₁, b, s₂, h₂, c, d, h₃, x, hx, y, hy, z, hz, w, hw, rfl⟩ := h
  obtain ⟨hx', rfl⟩ := parseOctet_eq_some hx
  obtain ⟨hy', rfl⟩ := parseOctet_eq_some hy
  obtain ⟨hz', rfl⟩ := parseOctet_eq_some hz
  obtain ⟨hw', rfl⟩ := parseOctet_eq_some hw
  rw [splitOnce_eq_some h₁, splitOnce_eq_some h₂, splitOnce_eq_some h₃]
  unfold Ipv4Addr at *
  have hlt : x * 2 ^ 24 + y * 2 ^ 16 + z * 2 ^ 8 + w < 2 ^ 32 := by omega
  refine ⟨hlt, ?_⟩
  have e₁ : (x * 2 ^ 24 + y * 2 ^ 16 + z * 2 ^ 8 + w) / 2 ^ 24 % 256 = x := by omega
  have e₂ : (x * 2 ^ 24 + y * 2 ^ 16 + z * 2 ^ 8 + w) / 2 ^ 16 % 256 = y := by omega
  have e₃ : (x * 2 ^ 24 + y * 2 ^ 16 + z * 2 ^ 8 + w) / 2 ^ 8 % 256 = z := by omega
  have e₄ : (x * 2 ^ 24 + y * 2 ^ 16 + z * 2 ^ 8 + w) % 256 = w := by omega
  simp only [Ipv4Addr.display, e₁, e₂, e₃, e₄, List.append_assoc, List.cons_append]

end Addresses

end Aerosuite.Scale
