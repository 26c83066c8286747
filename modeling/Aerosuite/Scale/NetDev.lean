import Aerosuite.Scale.IpvsTable
import Aerosuite.Scale.Scaler

/-! Tables in the format of `/proc/net/dev`, and the counter that `parse_iface_rx_bytes` reads from
them. -/

namespace Aerosuite.Scale

open Text

/-- The name of an interface: a word without a colon. -/
abbrev IfaceName := { w : Word // ':' ∉ w.1 }

/-- A counter of an interface. -/
abbrev Counter := { n : ℕ // n < 2 ^ 64 }

/-- The line of an interface.  Counters are in columns, and one that is too wide for its column
follows the colon at once. -/
structure IfaceLine where
  lead : List Blank
  name : IfaceName
  gap : List Blank
  rx_bytes : Counter
  counters : List (Gap × Counter)
  trail : List Blank

namespace IfaceLine

variable (i : IfaceLine)

def columns : List Char :=
  words (decimalWord i.rx_bytes) (i.counters.map fun c => (c.1, decimalWord c.2))

def line : List Char :=
  blanks i.lead ++ (i.name.1.1 ++ ':' :: (blanks i.gap ++ (i.columns ++ blanks i.trail)))

end IfaceLine

/-- The two lines above the interfaces. -/
def netDevHeader : List (List Char) :=
  ["Inter-|   Receive".toList ++ (List.replicate 48 ' ' ++ "|  Transmit".toList),
    " face |bytes    packets errs drop fifo ".toList ++ ("frame compressed multicast|".toList ++
      ("bytes    packets errs drop fifo ".toList ++ "colls carrier compressed".toList))]

/-- A table of `/proc/net/dev`. -/
structure NetDevTable where
  ifaces : List IfaceLine
  distinct : (ifaces.map IfaceLine.name).Nodup

def NetDevTable.text (t : NetDevTable) : String :=
  String.ofList (unlines (netDevHeader ++ t.ifaces.map IfaceLine.line))

section Lines

/-- A text is read from its first colon in one way only. -/
theorem append_colon_inj {s s' t t' : List Char} (hs : ':' ∉ s) (hs' : ':' ∉ s')
    (h : s ++ ':' :: t = s' ++ ':' :: t') : s = s' ∧ t = t' := by
  have hsplit := splitOnce_append hs (t := t)
  rw [h, splitOnce_append hs', Option.some.injEq, Prod.mk.injEq] at hsplit
  exact ⟨hsplit.1.symm, hsplit.2.symm⟩

theorem ifaceRest_eq_some {iface line rest : List Char} :
    ifaceRest iface line = some rest ↔ trimStart line = iface ++ ':' :: rest := by
  rw [ifaceRest, Option.bind_eq_some_iff]
  simp only [stripPrefix_eq_some]
  constructor
  · rintro ⟨s, h, rfl⟩
    exact h
  · intro h
    exact ⟨':' :: rest, h, rfl⟩

/-- The name of the interface decides, not a prefix of it. -/
theorem ifaceRest_line (lead : List Blank) (name iface : IfaceName) (rest : List Char) :
    ifaceRest iface.1.1 (blanks lead ++ (name.1.1 ++ ':' :: rest)) =
      if name = iface then some rest else none := by
  have htrim : trimStart (blanks lead ++ (name.1.1 ++ ':' :: rest)) = name.1.1 ++ ':' :: rest := by
    rw [trimStart_append fun c => isWhitespace_of_mem_blanks, trimStart_of_head]
    intro c hc
    rw [List.head?_append_of_ne_nil _ name.1.2.1] at hc
    exact name.1.2.2 c (List.mem_of_mem_head? hc)
  split
  · next h =>
    subst h
    exact ifaceRest_eq_some.mpr htrim
  · next h =>
    rw [Option.eq_none_iff_forall_ne_some]
    intro rest' hrest
    rw [ifaceRest_eq_some, htrim] at hrest
    have hname := (append_colon_inj name.2 iface.2 hrest).1
    exact h (Subtype.ext (Subtype.ext hname))

theorem IfaceLine.not_newline (i : IfaceLine) : '\n' ∉ i.line := by
  simp [line, columns, not_newline_of_mem_blanks, not_newline_words, i.name.1.not_newline]

/-- A line is read as that of its interface, whose first column is the counter. -/
theorem IfaceLine.rest (i : IfaceLine) (iface : IfaceName) : ∃ rest,
    ifaceRest iface.1.1 ((stripSuffix ['\r'] i.line).getD i.line) =
      (if i.name = iface then some rest else none) ∧
    (splitWhitespace rest).head?.bind parseU64 = some i.rx_bytes.1 := by
  obtain ⟨s, w, hlast⟩ := words_last (decimalWord i.rx_bytes)
    (i.counters.map fun c => (c.1, decimalWord c.2))
  have hline : i.line = (blanks i.lead ++ (i.name.1.1 ++ ':' :: (blanks i.gap ++ s))) ++
      (w.1 ++ blanks i.trail) := by
    simp [line, columns, hlast]
  obtain ⟨trail, htrail⟩ := stripSuffix_blanks
    (blanks i.lead ++ (i.name.1.1 ++ ':' :: (blanks i.gap ++ s))) w i.trail
  have hread : (stripSuffix ['\r'] i.line).getD i.line =
      blanks i.lead ++ (i.name.1.1 ++ ':' :: (blanks i.gap ++ (i.columns ++ blanks trail))) := by
    rw [hline, htrail]
    simp [columns, hlast]
  refine ⟨blanks i.gap ++ (i.columns ++ blanks trail), ?_, ?_⟩
  · rw [hread, ifaceRest_line]
  · rw [splitWhitespace_blanks_append, splitWhitespace_append_blanks, columns,
      splitWhitespace_words]
    exact parseUint_toDigits (Nat.le_pred_of_lt i.rx_bytes.2)

theorem netDevHeader_plain : ∀ line ∈ netDevHeader, ':' ∉ line ∧ '\n' ∉ line ∧ '\r' ∉ line := by
  have hall : (netDevHeader.all fun line =>
    !line.contains ':' && !line.contains '\n' && !line.contains '\r') = true := by decide +kernel
  intro line hline
  simpa [and_assoc] using List.all_eq_true.mp hall line hline

/-- The header has no line of an interface. -/
theorem ifaceRest_header {iface line : List Char} (h : line ∈ netDevHeader) :
    ifaceRest iface ((stripSuffix ['\r'] line).getD line) = none := by
  obtain ⟨hcolon, -, hcr⟩ := netDevHeader_plain line h
  have hstrip : stripSuffix ['\r'] line = none := by
    rw [Option.eq_none_iff_forall_ne_some]
    intro s hs
    rw [stripSuffix_eq_some.mp hs] at hcr
    simp at hcr
  rw [hstrip, Option.getD_none, Option.eq_none_iff_forall_ne_some]
  intro rest hrest
  apply hcolon
  apply (List.dropWhile_sublist isWhitespace).subset
  show ':' ∈ trimStart line
  rw [ifaceRest_eq_some.mp hrest]
  simp

end Lines

/-- The counter that is read is the one on the line of the interface. -/
theorem parseIfaceRxBytes_table (t : NetDevTable) (iface : IfaceName) :
    parseIfaceRxBytes t.text (String.ofList iface.1.1) =
      (t.ifaces.find? fun i => i.name = iface).map fun i => i.rx_bytes.1 := by
  have hifaces : ∀ ifaces : List IfaceLine, ((ifaces.map fun i =>
      (stripSuffix ['\r'] i.line).getD i.line).findSome? (ifaceRest iface.1.1)).bind
        (fun rest => (splitWhitespace rest).head?.bind parseU64) =
      (ifaces.find? fun i => i.name = iface).map fun i => i.rx_bytes.1 := by
    intro ifaces
    induction ifaces with
    | nil => rfl
    | cons i ifaces ih =>
      obtain ⟨rest, hrest, hcounter⟩ := i.rest iface
      rw [List.map_cons, List.findSome?_cons, hrest]
      by_cases hname : i.name = iface
      · simp [hname, hcounter]
      · simp [hname, ih]
  have hlines : ∀ line ∈ netDevHeader ++ t.ifaces.map IfaceLine.line, '\n' ∉ line := by
    intro line hline
    rcases List.mem_append.mp hline with hheader | hiface
    · exact (netDevHeader_plain line hheader).2.1
    · obtain ⟨i, -, rfl⟩ := List.mem_map.mp hiface
      exact i.not_newline
  have hheader : (netDevHeader.map fun line => (stripSuffix ['\r'] line).getD line).findSome?
      (ifaceRest iface.1.1) = none := by
    rw [List.findSome?_eq_none_iff]
    intro line hline
    obtain ⟨line, hmem, rfl⟩ := List.mem_map.mp hline
    exact ifaceRest_header hmem
  rw [parseIfaceRxBytes, NetDevTable.text, String.toList_ofList, String.toList_ofList,
    lines_unlines hlines, List.map_append, List.findSome?_append, hheader, Option.none_or,
    List.map_map]
  exact hifaces t.ifaces

/-- The counter of each interface of the table is found under its name, and none is found under any
other. -/
theorem iface_counter_exact (t : NetDevTable) (iface : IfaceName) :
    (∀ n, parseIfaceRxBytes t.text (String.ofList iface.1.1) = some n ↔
      ∃ i ∈ t.ifaces, i.name = iface ∧ i.rx_bytes.1 = n) ∧
    (parseIfaceRxBytes t.text (String.ofList iface.1.1) = none ↔
      ∀ i ∈ t.ifaces, i.name ≠ iface) := by
  rw [parseIfaceRxBytes_table]
  constructor
  · intro n
    rw [Option.map_eq_some_iff]
    constructor
    · rintro ⟨i, hfind, hn⟩
      exact ⟨i, List.mem_of_find?_eq_some hfind, by simpa using List.find?_some hfind, hn⟩
    · rintro ⟨i, hi, hname, hn⟩
      refine ⟨i, ?_, hn⟩
      cases hfind : t.ifaces.find? fun i => i.name = iface with
      | none =>
        have hno := List.find?_eq_none.mp hfind i hi
        simp [hname] at hno
      | some i' =>
        have hname' : i'.name = iface := by simpa using List.find?_some hfind
        have heq := List.inj_on_of_nodup_map t.distinct (List.mem_of_find?_eq_some hfind) hi
          (hname'.trans hname.symm)
        rw [heq]
  · simp

/-- A name that another one extends. -/
example : parseIfaceRxBytes " eth01:5 1\n  eth0: 7 2\n" "eth0" = some 7 := by decide +kernel

section Sample

def ifaceName (name : String) (h : (name.toList ≠ [] ∧
    (name.toList.all fun c => !isWhitespace c) = true) ∧ ':' ∉ name.toList) : IfaceName :=
  ⟨plainWord name.toList h.1, h.2⟩

/-- A line whose columns are as far to the right as these numbers of blanks bring them. -/
def ifaceLine (lead : ℕ) (name : IfaceName) (rx_bytes : Counter) (counters : List (ℕ × Counter)) :
    IfaceLine :=
  ⟨List.replicate lead space, name, [space], rx_bytes, counters.map fun c => (gap c.1, c.2), []⟩

def sampleIfaces : List IfaceLine :=
  [ifaceLine 2 (ifaceName "eth0" (by decide +kernel)) ⟨490569799018, by decide⟩
      [(0, ⟨344109988, by decide⟩), (3, ⟨0, by decide⟩), (1, ⟨186, by decide⟩)],
    ifaceLine 0 (ifaceName "vxlan0" (by decide +kernel)) ⟨2024, by decide⟩
      [(5, ⟨35, by decide⟩), (3, ⟨0, by decide⟩), (3, ⟨0, by decide⟩)]]

theorem sampleIfaces_distinct : (sampleIfaces.map IfaceLine.name).Nodup := by decide +kernel

/-- The first columns of the table of a load balancer. -/
def sampleNetDev : NetDevTable := ⟨sampleIfaces, sampleIfaces_distinct⟩

example : sampleNetDev.ifaces.map IfaceLine.line =
    ["  eth0: 490569799018 344109988    0  186".toList,
      "vxlan0: 2024      35    0    0".toList] := by decide +kernel

end Sample

end Aerosuite.Scale
