import Aerosuite.Library.Search
import Aerosuite.Scale.Daemon

/-! The role of a node from the output of `ip addr show`.  The text of the inside address is looked
for anywhere in the output, so it is also found inside the text of a longer address. -/

namespace Aerosuite.Scale

open Search

/-- A line `inet` of `ip addr show`: the address, its mask, the broadcast address, and the text
after them. -/
structure Inet where
  addr : Ipv4Addr
  addr_lt : addr < 2 ^ 32
  len : ℕ
  brd : Option Ipv4Addr
  rest : List Char

/-- An interface of `ip addr show`, with its IPv4 addresses. -/
structure Interface where
  index : ℕ
  name : List Char
  details : List Char
  link : List Char
  inets : List Inet

def Inet.brdText : Option Ipv4Addr → List Char
  | some brd => "brd ".toList ++ (brd.display ++ " ".toList)
  | none => []

def Inet.text (i : Inet) : List Char :=
  "    inet ".toList ++ (i.addr.display ++ ("/".toList ++ (Nat.toDigits 10 i.len ++
    (" ".toList ++ (Inet.brdText i.brd ++ (i.rest ++ "\n".toList))))))

def Interface.text (i : Interface) : List Char :=
  Nat.toDigits 10 i.index ++ (": ".toList ++ (i.name ++ (": ".toList ++ (i.details ++
    ("\n    link/".toList ++ (i.link ++ ("\n".toList ++ i.inets.flatMap Inet.text)))))))

/-- The output of `ip addr show`. -/
def ipAddrShow (table : List Interface) : String :=
  String.ofList (table.flatMap Interface.text)

/-- The address is assigned to one of the interfaces. -/
def Assigned (ip : Ipv4Addr) (table : List Interface) : Prop :=
  ∃ i ∈ table, ∃ inet ∈ i.inets, inet.addr = ip

/-- The decimal text of an octet, counted from the last one. -/
def Ipv4Addr.octetText (ip : Ipv4Addr) (n : ℕ) : List Char :=
  Nat.toDigits 10 (ip / 2 ^ (8 * n) % 256)

/-- The octets of `ip'` extend those of `ip`: the middle ones are the same, the first one ends
with the digits of `ip`'s, and the last one begins with them. -/
def Extends (ip ip' : Ipv4Addr) : Prop :=
  ip.octetText 3 <:+ ip'.octetText 3 ∧ ip.octetText 2 = ip'.octetText 2 ∧
    ip.octetText 1 = ip'.octetText 1 ∧ ip.octetText 0 <+: ip'.octetText 0

/-- A line `inet` mentions `ip` without assigning it: a longer address, the broadcast address or
the text after them. -/
def Inet.Mentions (ip : Ipv4Addr) (i : Inet) : Prop :=
  Extends ip i.addr ∨ (∃ brd ∈ i.brd, Extends ip brd) ∨ ip.display <:+: i.rest

def Interface.Mentions (ip : Ipv4Addr) (i : Interface) : Prop :=
  ip.display <:+: i.name ∨ ip.display <:+: i.details ∨ ip.display <:+: i.link ∨
    ∃ inet ∈ i.inets, inet.Mentions ip

def Mentioned (ip : Ipv4Addr) (table : List Interface) : Prop := ∃ i ∈ table, i.Mentions ip

theorem display_eq (ip : Ipv4Addr) :
    ip.display = ip.octetText 3 ++ '.' :: (ip.octetText 2 ++ '.' :: (ip.octetText 1 ++
      '.' :: ip.octetText 0)) := by
  simp [Ipv4Addr.display, Ipv4Addr.octetText]

theorem dot_not_mem_octetText (ip : Ipv4Addr) (n : ℕ) : '.' ∉ ip.octetText n :=
  dot_not_mem_toDigits _

/-- Lists without the mark on both sides of a mark are told apart by it. -/
theorem append_dot_inj {a a' s s' : List Char} (ha : '.' ∉ a) (ha' : '.' ∉ a')
    (h : a ++ '.' :: s = a' ++ '.' :: s') : a = a' ∧ s = s' := by
  have hsplit := splitOnce_append (t := s) ha
  rw [h, splitOnce_append ha'] at hsplit
  simpa [eq_comm] using hsplit

/-- The text of an address stands inside the text of an address that extends it, and only there. -/
theorem display_infix_iff {ip ip' : Ipv4Addr} : ip.display <:+: ip'.display ↔ Extends ip ip' := by
  have hd := dot_not_mem_octetText ip
  have hd' := dot_not_mem_octetText ip'
  constructor
  · rintro ⟨u, v, h⟩
    have hcount := congrArg (List.count '.') h
    simp only [display_eq, List.count_append, List.count_cons_self,
      List.count_eq_zero_of_not_mem (hd _), List.count_eq_zero_of_not_mem (hd' _)] at hcount
    have hu : '.' ∉ u := List.count_eq_zero.mp (by omega)
    have hv : '.' ∉ v := List.count_eq_zero.mp (by omega)
    simp only [display_eq, List.append_assoc, List.cons_append] at h
    rw [← List.append_assoc] at h
    obtain ⟨h₃, h⟩ := append_dot_inj (by simp [hu, hd]) (hd' 3) h
    obtain ⟨h₂, h⟩ := append_dot_inj (hd 2) (hd' 2) h
    obtain ⟨h₁, h⟩ := append_dot_inj (hd 1) (hd' 1) h
    exact ⟨⟨u, h₃⟩, h₂, h₁, ⟨v, h⟩⟩
  · rintro ⟨⟨u, h₃⟩, h₂, h₁, ⟨v, h₀⟩⟩
    refine ⟨u, v, ?_⟩
    rw [display_eq, display_eq, ← h₃, h₂, h₁, ← h₀]
    simp

theorem mem_display {ip : Ipv4Addr} {c : Char} (h : c ∈ ip.display) : c = '.' ∨ c.isDigit := by
  have hoctet : ∀ n, c ∈ ip.octetText n → c.isDigit := fun n =>
    Nat.isDigit_of_mem_toDigits (by decide) (by decide)
  rw [display_eq] at h
  simp only [List.mem_append, List.mem_cons] at h
  rcases h with h | h | h | h | h | h | h
  · exact Or.inr (hoctet 3 h)
  · exact Or.inl h
  · exact Or.inr (hoctet 2 h)
  · exact Or.inl h
  · exact Or.inr (hoctet 1 h)
  · exact Or.inl h
  · exact Or.inr (hoctet 0 h)

/-- The text of an address does not stand in a text without dots. -/
theorem display_not_within {ip : Ipv4Addr} {s : List Char} (h : '.' ∉ s) :
    ¬ ip.display <:+: s := fun hin => h (hin.subset (by simp [display_eq]))

/-- The text of an address lies on one side of a label. -/
theorem display_infix_append {ip : Ipv4Addr} {u label v : List Char} (hne : label ≠ [])
    (h : label.all fun c => c ≠ '.' ∧ ¬ c.isDigit) :
    ip.display <:+: u ++ (label ++ v) ↔ ip.display <:+: u ∨ ip.display <:+: v := by
  refine infix_append_marks hne fun c hc hmem => ?_
  have hlabel := List.all_eq_true.mp h c hc
  simp only [decide_eq_true_eq] at hlabel
  rcases mem_display hmem with rfl | hdigit
  · exact hlabel.1 rfl
  · exact hlabel.2 hdigit

theorem display_infix_label {ip : Ipv4Addr} {label v : List Char} (hne : label ≠ [])
    (h : label.all fun c => c ≠ '.' ∧ ¬ c.isDigit) :
    ip.display <:+: label ++ v ↔ ip.display <:+: v := by
  have happend : ip.display <:+: [] ++ (label ++ v) ↔ _ := display_infix_append hne h
  rw [List.nil_append] at happend
  rw [happend, or_iff_right_iff_imp]
  exact fun hnil => absurd hnil (display_not_within (by simp))

theorem Inet.display_infix_brdText_append (ip : Ipv4Addr) (brd : Option Ipv4Addr) (v : List Char) :
    ip.display <:+: Inet.brdText brd ++ v ↔
      (∃ ip' ∈ brd, Extends ip ip') ∨ ip.display <:+: v := by
  cases brd with
  | none => simp [Inet.brdText]
  | some ip' =>
    simp only [Inet.brdText, List.append_assoc]
    rw [display_infix_label (by simp) (by simp), display_infix_append (by simp) (by simp),
      display_infix_iff]
    simp

theorem Inet.display_infix_text_append (ip : Ipv4Addr) (i : Inet) (v : List Char) :
    ip.display <:+: i.text ++ v ↔ i.Mentions ip ∨ ip.display <:+: v := by
  have hlen : ¬ ip.display <:+: Nat.toDigits 10 i.len :=
    display_not_within (dot_not_mem_toDigits _)
  unfold Inet.text Inet.Mentions
  simp only [List.append_assoc]
  rw [display_infix_label (by simp) (by simp), display_infix_append (by simp) (by simp),
    display_infix_iff, display_infix_append (by simp) (by simp), or_iff_right hlen,
    display_infix_brdText_append, display_infix_append (by simp) (by simp)]
  simp only [or_assoc]

theorem Interface.display_infix_text_append (ip : Ipv4Addr) (i : Interface) (v : List Char) :
    ip.display <:+: i.text ++ v ↔ i.Mentions ip ∨ ip.display <:+: v := by
  have hindex : ¬ ip.display <:+: Nat.toDigits 10 i.index :=
    display_not_within (dot_not_mem_toDigits _)
  unfold Interface.text Interface.Mentions
  simp only [List.append_assoc]
  rw [display_infix_append (by simp) (by simp), or_iff_right hindex,
    display_infix_append (by simp) (by simp), display_infix_append (by simp) (by simp),
    display_infix_append (by simp) (by simp),
    infix_flatMap_append (Inet.display_infix_text_append ip)]
  simp only [or_assoc]

/-- The node takes itself for the master as soon as its table mentions the inside address. -/
theorem holdsVip_iff (vip : Ipv4Addr) (table : List Interface) :
    holdsVip vip (some (ipAddrShow table)) = true ↔ Mentioned vip table := by
  have htable := infix_flatMap_append (v := [])
    (fun i v => Interface.display_infix_text_append vip i v) table
  rw [List.append_nil] at htable
  rw [holdsVip, Text.contains_iff, ipAddrShow, String.toList_ofList, htable, or_iff_left]
  · rfl
  · exact display_not_within (by simp)

theorem Assigned.mentioned {ip : Ipv4Addr} {table : List Interface} (h : Assigned ip table) :
    Mentioned ip table := by
  obtain ⟨i, hi, inet, hinet, rfl⟩ := h
  refine ⟨i, hi, Or.inr (Or.inr (Or.inr ⟨inet, hinet, Or.inl ?_⟩))⟩
  exact display_infix_iff.mp List.infix_rfl

/-- The role is right exactly when the inside address is assigned or the table mentions it
nowhere. -/
theorem is_master_exact_iff (vip : Ipv4Addr) (table : List Interface) :
    (holdsVip vip (some (ipAddrShow table)) = true ↔ Assigned vip table) ↔
      Assigned vip table ∨ ¬ Mentioned vip table := by
  rw [holdsVip_iff]
  constructor
  · intro h
    by_cases hvip : Assigned vip table
    · exact Or.inl hvip
    · exact Or.inr fun hmention => hvip (h.mp hmention)
  · rintro (h | h)
    · exact ⟨fun _ => h, fun _ => h.mentioned⟩
    · exact ⟨fun hmention => absurd hmention h, Assigned.mentioned⟩

/-- The interface of a node in 10.0.0.0/24. -/
def exampleInterface (ip : Ipv4Addr) (h : ip < 2 ^ 32) : Interface where
  index := 2
  name := "eth0".toList
  details := "<BROADCAST,MULTICAST,UP,LOWER_UP> mtu 9001 qdisc mq state UP".toList
  link := "ether 02:42:0a:00:00:0a brd ff:ff:ff:ff:ff:ff".toList
  inets := [⟨ip, h, 24, some 167772415, "scope global eth0".toList⟩]

/-- The node with the inside address 10.0.0.1 and the node with the address 10.0.0.10 both take
themselves for the master. -/
theorem is_master_split_brain :
    holdsVip 167772161 (some (ipAddrShow [exampleInterface 167772161 (by decide)])) = true ∧
    holdsVip 167772161 (some (ipAddrShow [exampleInterface 167772170 (by decide)])) = true ∧
    Assigned 167772161 [exampleInterface 167772161 (by decide)] ∧
    ¬ Assigned 167772161 [exampleInterface 167772170 (by decide)] := by
  have hextends : Extends 167772161 167772170 := by
    unfold Extends
    decide +kernel
  have hassigned : Assigned 167772161 [exampleInterface 167772161 (by decide)] :=
    ⟨_, List.mem_cons_self, _, List.mem_cons_self, rfl⟩
  refine ⟨?_, ?_, hassigned, ?_⟩
  · rw [holdsVip_iff]
    exact hassigned.mentioned
  · rw [holdsVip_iff]
    refine ⟨_, List.mem_cons_self, Or.inr (Or.inr (Or.inr ⟨_, List.mem_cons_self, ?_⟩))⟩
    exact Or.inl hextends
  · rintro ⟨i, hi, inet, hinet, heq⟩
    obtain rfl := List.mem_singleton.mp hi
    obtain rfl := List.mem_singleton.mp hinet
    revert heq
    decide

end Aerosuite.Scale
