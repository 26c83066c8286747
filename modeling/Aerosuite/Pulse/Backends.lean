import Aerosuite.Library.Config
import Aerosuite.Scale.Effects

/-! The pool that `aeropulse` generates for keepalived, and whether it is the one whose weight files
`aeroscale` writes. -/

namespace Aerosuite.Pulse

open Config Scale Text

/-- A text in one line. -/
abbrev OneLine := { s : List Char // '\n' ∉ s }

/-- The parts of `InstanceData` and `Args` that the pool is generated from. -/
structure InstanceData where
  instance_id : OneLine
  vip_outside : OneLine
  slot_network : SlotNetwork
  slot_count : ℕ

structure Args where
  lvs_sched : OneLine
  persistence_timeout : ℕ

/-- How a build treats the result of an operation on `u32`: out of range, the debug build panics and
the release build wraps around. -/
inductive Build where
  | debug
  | release

def Build.u32 : Build → ℤ → Option ℕ
  | .debug, n => if 0 ≤ n ∧ n < 2 ^ 32 then some n.toNat else none
  | .release, n => some (n % 2 ^ 32).toNat

section Source

/-- `ip_for_slot`. -/
def ipForSlot (build : Build) (net : SlotNetwork) (slot : ℕ) : Option Ipv4Addr := do
  let first ← build.u32 ((net.base : ℤ) + net.offset)
  build.u32 ((first : ℤ) + slot)

/-- The first and the last address of the slots. -/
def slotRange (build : Build) (data : InstanceData) : Option (Ipv4Addr × Ipv4Addr) := do
  let slot_0 ← ipForSlot build data.slot_network 0
  let last ← build.u32 ((data.slot_count : ℤ) - 1)
  let slot_last ← ipForSlot build data.slot_network last
  pure (slot_0, slot_last)

/-- The line of `main` that shows the slots. -/
def slotsText (data : InstanceData) (range : Ipv4Addr × Ipv4Addr) : List Char :=
  "  Slots     : ".toList ++ Nat.toDigits 10 data.slot_count ++ " × (".toList ++
    range.1.display ++ " – ".toList ++ range.2.display ++ ")".toList

def slotsLine (build : Build) (data : InstanceData) : Option (List Char) := do
  let range ← slotRange build data
  pure (slotsText data range)

def trackFile (ip : Ipv4Addr) : List (List Char) :=
  ["track_file backend_".toList ++ (ip.display ++ " \x7b".toList),
    "    file \"/etc/keepalived/weights/backend-".toList ++ (ip.display ++ ".weight\"".toList),
    "\x7d".toList]

def realServer (ip : Ipv4Addr) : List (List Char) :=
  ["    real_server ".toList ++ (ip.display ++ " 21 \x7b".toList),
    "        weight 1".toList,
    "        FILE_CHECK \x7b".toList,
    "            track_file backend_".toList ++ ip.display,
    "            weight 1".toList,
    "        \x7d".toList,
    "    \x7d".toList]

/-- A loop over the slots that appends the lines of one block for each of them. -/
def pushBlocks (build : Build) (data : InstanceData) (block : Ipv4Addr → List (List Char)) :
    Option (List Char) :=
  (List.range data.slot_count).foldlM (fun out slot => do
    let ip ← ipForSlot build data.slot_network slot
    pure (out ++ unlines (block ip))) []

def weightNotes : List String :=
  ["#",
    "# Weight file values:",
    "#    0           → active   (effective weight 1, receives new connections)",
    "#   -1           → draining (effective weight 0, no new connections)",
    "#   -2147483648  → removed  (FAULT state, fully absent from IPVS scheduler)",
    "#",
    "# These files are managed by aeroscale; do not edit manually."]

def trackFileNotes : List String :=
  ["# ---------------------------------------------------------------------------",
    "# One track_file per backend slot.",
    "# ---------------------------------------------------------------------------"]

def virtualServerNotes : List String :=
  ["# ---------------------------------------------------------------------------",
    "# Virtual server  (outside VIP → backend pool on FTP port 21)",
    "#",
    "# FTP requires NAT mode so that ip_vs_ftp can rewrite PASV responses and",
    "# automatically track data-channel connections.  DR mode is not supported.",
    "#",
    "# persistence_timeout only needs to cover the window from control-connection",
    "# establishment to ip_vs_ftp processing the PASV response.  Once ip_vs_ftp",
    "# has created the data-channel IPVS entry the session no longer depends on",
    "# persistence.  Since each control connection carries exactly one file upload",
    "# there is no need to cover multiple transfers per control connection.",
    "# ---------------------------------------------------------------------------"]

/-- What stands above the `track_file` blocks. -/
def head (data : InstanceData) (ts : OneLine) (range : Ipv4Addr × Ipv4Addr) : List (List Char) :=
  ["# backends.conf — generated by aeropulse for ".toList ++ data.instance_id.1,
    "# Generated : ".toList ++ ts.1,
    "# DO NOT EDIT MANUALLY — re-run aeropulse to regenerate.".toList,
    "#".toList,
    "# Slot network:".toList,
    "#   base      : ".toList ++ Ipv4Addr.display data.slot_network.base,
    "#   offset    : ".toList ++ Nat.toDigits 10 data.slot_network.offset,
    "#   count     : ".toList ++ Nat.toDigits 10 data.slot_count,
    "#   range     : ".toList ++ (range.1.display ++ (" – ".toList ++ range.2.display))] ++
  weightNotes.map String.toList ++ [[]] ++ trackFileNotes.map String.toList ++ [[]]

/-- What stands between the `track_file` and the `real_server` blocks. -/
def virtualServer (args : Args) (data : InstanceData) : List (List Char) :=
  [[]] ++ virtualServerNotes.map String.toList ++
  [[],
    "virtual_server ".toList ++ (data.vip_outside.1 ++ " 21 \x7b".toList),
    "    lvs_sched    ".toList ++ args.lvs_sched.1,
    "    lvs_method   NAT".toList,
    "    protocol     TCP".toList,
    "    persistence_timeout ".toList ++ Nat.toDigits 10 args.persistence_timeout,
    "    quorum       1".toList,
    []]

def renderBackendsConf (build : Build) (args : Args) (data : InstanceData) (ts : OneLine) :
    Option (List Char) := do
  let range ← slotRange build data
  let track_files ← pushBlocks build data trackFile
  let real_servers ← pushBlocks build data realServer
  pure (unlines (head data ts range) ++ (track_files ++ (unlines (virtualServer args data) ++
    (real_servers ++ unlines ["\x7d".toList]))))

/-- What `main` shows of the slots and writes to `backends.conf`. -/
def generate (build : Build) (args : Args) (data : InstanceData) (ts : OneLine) :
    Option (List Char × List Char) := do
  let line ← slotsLine build data
  let backends_conf ← renderBackendsConf build args data ts
  pure (line, backends_conf)

end Source

/-- The default of `--weights-dir`. -/
def WEIGHTS_DIR : String := "/etc/keepalived/weights"

/-- The path that `write_weight` writes. -/
def weightPath (weights_dir : String) (ip : Ipv4Addr) : List Char :=
  weights_dir.toList ++ '/' :: (weightFile ip).toList

def backendName (ip : Ipv4Addr) : List Char := "backend_".toList ++ ip.display

/-- The `track_file` block of a backend as keepalived reads it. -/
def trackFileBlock (ip : Ipv4Addr) : List (List Char) × List Directive :=
  ([backendName ip], [["file".toList, '"' :: (weightPath WEIGHTS_DIR ip ++ ['"'])]])

/-- The `real_server` block of a backend as keepalived reads it. -/
def realServerBlock (ip : Ipv4Addr) : List (List Char) × List Directive :=
  ([ip.display, "21".toList],
    [["weight".toList, "1".toList], ["FILE_CHECK".toList, ['{']],
      ["track_file".toList, backendName ip], ["weight".toList, "1".toList], [['}']]])

/-- The pool has the backends of the slots below a count, under distinct names and with the weight
files that the daemon writes, and no others. -/
structure MatchesDaemon (net : SlotNetwork) (count : ℕ) (backends_conf : List Char) : Prop where
  track_files : blocks "track_file".toList (directives backends_conf) =
    (List.range count).map fun slot => trackFileBlock (net.ipForSlot slot)
  real_servers : blocks "real_server".toList (directives backends_conf) =
    (List.range count).map fun slot => realServerBlock (net.ipForSlot slot)
  names : ((List.range count).map fun slot => backendName (net.ipForSlot slot)).Nodup

/-- The slot range and the pool are generated without overflow, and the pool matches the daemon. -/
def GeneratesPool (args : Args) (data : InstanceData) (ts : OneLine) : Prop :=
  ∃ line backends_conf, generate .debug args data ts = some (line, backends_conf) ∧
    generate .release args data ts = some (line, backends_conf) ∧
    MatchesDaemon data.slot_network data.slot_count backends_conf

section Arithmetic

variable {build : Build} {net : SlotNetwork} {data : InstanceData}

theorem u32_of_lt (build : Build) {n : ℕ} (h : n < 2 ^ 32) : build.u32 n = some n := by
  cases build with
  | debug =>
    rw [Build.u32, if_pos ⟨by omega, by omega⟩]
    rfl
  | release =>
    rw [Build.u32, Int.emod_eq_of_lt (by omega) (by omega)]
    rfl

theorem debug_u32_eq_some {n : ℤ} {m : ℕ} (h : Build.debug.u32 n = some m) :
    n = m ∧ m < 2 ^ 32 := by
  simp only [Build.u32, Option.ite_none_right_eq_some, Option.some.injEq] at h
  omega

theorem ipForSlot_of_lt {slot : ℕ} (h : net.base + net.offset + slot < 2 ^ 32) :
    ipForSlot build net slot = some (net.ipForSlot slot) := by
  have hsum : net.ipForSlot slot = net.base + net.offset + slot := Nat.mod_eq_of_lt h
  have hfirst : build.u32 ((net.base : ℤ) + net.offset) = some (net.base + net.offset) := by
    have hlt : net.base + net.offset < 2 ^ 32 := lt_of_le_of_lt (Nat.le_add_right _ _) h
    exact_mod_cast u32_of_lt build hlt
  have hsecond : build.u32 (((net.base + net.offset : ℕ) : ℤ) + slot) =
      some (net.base + net.offset + slot) := by
    exact_mod_cast u32_of_lt build h
  rw [ipForSlot, hfirst, hsum]
  exact hsecond

theorem debug_ipForSlot_eq_some {slot : ℕ} {ip : Ipv4Addr}
    (h : ipForSlot .debug net slot = some ip) : net.base + net.offset + slot < 2 ^ 32 := by
  simp only [ipForSlot, Option.bind_eq_bind, Option.bind_eq_some_iff] at h
  obtain ⟨first, hfirst, hip⟩ := h
  obtain ⟨heq, -⟩ := debug_u32_eq_some hfirst
  obtain ⟨heq', hlt⟩ := debug_u32_eq_some hip
  have hsum : ((net.base + net.offset + slot : ℕ) : ℤ) < 2 ^ 32 := by
    push_cast
    omega
  exact_mod_cast hsum

/-- There is a slot, and the address of the last one fits into 32 bits. -/
def InstanceData.Fits (data : InstanceData) : Prop :=
  1 ≤ data.slot_count ∧
    data.slot_network.base + data.slot_network.offset + (data.slot_count - 1) < 2 ^ 32

theorem InstanceData.Fits.slot (h : data.Fits) {slot : ℕ} (hslot : slot < data.slot_count) :
    data.slot_network.base + data.slot_network.offset + slot < 2 ^ 32 := by
  refine lt_of_le_of_lt ?_ h.2
  exact Nat.add_le_add_left (Nat.le_sub_one_of_lt hslot) _

theorem slotRange_of_fits (h : data.Fits) : slotRange build data =
    some (data.slot_network.ipForSlot 0, data.slot_network.ipForSlot (data.slot_count - 1)) := by
  have hcount : data.slot_count - 1 < 2 ^ 32 := lt_of_le_of_lt (Nat.le_add_left _ _) h.2
  have hlast : build.u32 ((data.slot_count : ℤ) - 1) = some (data.slot_count - 1) := by
    rw [← u32_of_lt build hcount, Nat.cast_sub h.1]
    rfl
  rw [slotRange, ipForSlot_of_lt (h.slot (Nat.lt_of_lt_of_le Nat.zero_lt_one h.1)), hlast]
  simp only [Option.bind_eq_bind, Option.bind_some, ipForSlot_of_lt h.2]
  rfl

theorem fits_of_slotRange {range : Ipv4Addr × Ipv4Addr}
    (h : slotRange .debug data = some range) : data.Fits := by
  simp only [slotRange, Option.bind_eq_bind, Option.bind_eq_some_iff] at h
  obtain ⟨slot_0, -, last, hlast, slot_last, hslot_last, -⟩ := h
  obtain ⟨heq, -⟩ := debug_u32_eq_some hlast
  have hpos : 1 ≤ data.slot_count := by omega
  obtain rfl : last = data.slot_count - 1 := by omega
  exact ⟨hpos, debug_ipForSlot_eq_some hslot_last⟩

theorem pushBlocks_of_fits (h : data.Fits) (block : Ipv4Addr → List (List Char)) :
    pushBlocks build data block = some (unlines ((List.range data.slot_count).flatMap fun slot =>
      block (data.slot_network.ipForSlot slot))) := by
  have hloop : ∀ (slots : List ℕ) (out : List Char), (∀ slot ∈ slots, slot < data.slot_count) →
      slots.foldlM (fun out slot => do
        let ip ← ipForSlot build data.slot_network slot
        pure (out ++ unlines (block ip))) out =
      some (out ++ unlines (slots.flatMap fun slot =>
        block (data.slot_network.ipForSlot slot))) := by
    intro slots
    induction slots with
    | nil => simp [unlines]
    | cons slot slots ih =>
      intro out hslots
      rw [List.foldlM_cons, ipForSlot_of_lt (h.slot (hslots slot List.mem_cons_self))]
      refine (ih _ fun s hs => hslots s (List.mem_cons_of_mem _ hs)).trans ?_
      simp [unlines]
  exact hloop _ [] fun slot hslot => List.mem_range.mp hslot

end Arithmetic

section Reading

/-- A line that opens no block of the pool. -/
structure Skips (line : List Char) : Prop where
  newline : '\n' ∉ line
  track_file : openArgs "track_file".toList (directive line) = none
  real_server : openArgs "real_server".toList (directive line) = none

theorem skips_of_head {line word : List Char} (hline : '\n' ∉ line)
    (hhead : (directive line).head? = some word) (hfile : word ≠ "track_file".toList)
    (hserver : word ≠ "real_server".toList) : Skips line := by
  refine ⟨hline, openArgs_eq_none ?_, openArgs_eq_none ?_⟩
  · rw [hhead]
    exact fun h => hfile (Option.some.inj h)
  · rw [hhead]
    exact fun h => hserver (Option.some.inj h)

theorem skips_nil : Skips [] := ⟨by simp, rfl, rfl⟩

theorem skips_comment {s : List Char} (h : '\n' ∉ s) : Skips ('#' :: s) := by
  refine ⟨by simp [h], ?_, ?_⟩ <;> rw [directive_comment rfl] <;> rfl

/-- A comment that ends with a text in one line. -/
theorem skips_note {s : List Char} (h : (s.head? == some '#' && !s.contains '\n') = true)
    {t : List Char} (ht : '\n' ∉ t) : Skips ((String.ofList s).toList ++ t) := by
  rw [String.toList_ofList]
  cases s with
  | nil => cases h
  | cons c s =>
    simp only [List.head?_cons, Bool.and_eq_true, beq_iff_eq, Option.some.injEq,
      Bool.not_eq_true', List.contains_eq_mem, decide_eq_false_iff_not, List.mem_cons,
      not_or] at h
    rw [h.1, List.cons_append]
    exact skips_comment (by simp [h.2.2, ht])

theorem skips_plain_note {s : List Char} (h : (s.head? == some '#' && !s.contains '\n') = true) :
    Skips (String.ofList s).toList := by
  rw [← List.append_nil (String.ofList s).toList]
  exact skips_note h List.not_mem_nil

theorem skips_notes : ∀ s ∈ weightNotes ++ trackFileNotes ++ virtualServerNotes,
    Skips s.toList := by
  simp only [weightNotes, trackFileNotes, virtualServerNotes, List.cons_append, List.nil_append,
    List.forall_mem_cons, List.not_mem_nil, false_implies, implies_true, and_true]
  and_intros <;> exact skips_plain_note (by decide)

theorem not_newline_toDigits (n : ℕ) : '\n' ∉ Nat.toDigits 10 n := fun h => by
  have hdigit := Nat.isDigit_of_mem_toDigits (by decide) (by decide) h
  simp at hdigit

/-- The characters of an address are neither blank nor a comment. -/
theorem plain_display (ip : Ipv4Addr) :
    ∀ c ∈ ip.display, isWhitespace c = false ∧ isMark c = false := by
  have hdigit : ∀ d < 10, isWhitespace (Nat.digitChar d) = false ∧
      isMark (Nat.digitChar d) = false := by decide
  have hoctet : ∀ n c, c ∈ Nat.toDigits 10 n → isWhitespace c = false ∧ isMark c = false := by
    intro n c hc
    obtain ⟨d, hd, rfl, -⟩ := digitChar_of_isDigit
      (Nat.isDigit_of_mem_toDigits (by decide) (by decide) hc)
    exact hdigit d hd
  intro c hc
  simp only [Ipv4Addr.display, List.mem_append, List.mem_cons] at hc
  rcases hc with ((hc | rfl | hc) | rfl | hc) | rfl | hc
  all_goals first | exact hoctet _ _ hc | decide

theorem not_newline_display (ip : Ipv4Addr) : '\n' ∉ ip.display := fun h =>
  absurd (plain_display ip _ h).1 (by decide)

theorem skips_head (data : InstanceData) (ts : OneLine) (range : Ipv4Addr × Ipv4Addr) :
    ∀ line ∈ head data ts range, Skips line := by
  have hnotes := skips_notes
  simp only [List.forall_mem_append] at hnotes
  simp only [head, List.forall_mem_append, List.forall_mem_map, List.forall_mem_cons,
    List.not_mem_nil, false_implies, implies_true, and_true]
  refine ⟨⟨⟨⟨⟨?_, ?_, ?_, ?_, ?_, ?_, ?_, ?_, ?_⟩, hnotes.1.1⟩, skips_nil⟩, hnotes.1.2⟩, skips_nil⟩
  · exact skips_note (by decide) data.instance_id.2
  · exact skips_note (by decide) ts.2
  · exact skips_plain_note (by decide)
  · exact skips_plain_note (by decide)
  · exact skips_plain_note (by decide)
  · exact skips_note (by decide) (not_newline_display _)
  · exact skips_note (by decide) (not_newline_toDigits _)
  · exact skips_note (by decide) (not_newline_toDigits _)
  · exact skips_note (by decide) (by simp [not_newline_display])

/-- A line that begins with another word. -/
theorem skips_word {line : List Char} (indent : ℕ) (word s : List Char)
    (hline : line = List.replicate indent ' ' ++ (word ++ ' ' :: s)) (hword : Plain word)
    (hfile : word ≠ "track_file".toList) (hserver : word ≠ "real_server".toList) (hs : '\n' ∉ s) :
    Skips line := by
  have hnewline : '\n' ∉ word := fun h => absurd (hword.2 _ h).1 (by decide)
  subst hline
  refine skips_of_head ?_ (directive_head indent hword s) hfile hserver
  simp [hnewline, hs, List.mem_replicate]

theorem skips_virtualServer (args : Args) (data : InstanceData) :
    ∀ line ∈ virtualServer args data, Skips line := by
  have hnotes := skips_notes
  simp only [List.forall_mem_append] at hnotes
  simp only [virtualServer, List.forall_mem_append, List.forall_mem_map, List.forall_mem_cons,
    List.not_mem_nil, false_implies, implies_true, and_true]
  refine ⟨⟨skips_nil, hnotes.2⟩, skips_nil, ?_, ?_, ?_, ?_, ?_, ?_, skips_nil⟩
  · exact skips_word 0 "virtual_server".toList (data.vip_outside.1 ++ " 21 \x7b".toList) (by simp)
      (by decide +kernel) (by decide) (by decide) (by simp [data.vip_outside.2])
  · exact skips_word 4 "lvs_sched".toList ("   ".toList ++ args.lvs_sched.1)
      (by simp [List.replicate]) (by decide +kernel) (by decide) (by decide)
      (by simp [args.lvs_sched.2])
  · exact skips_word 4 "lvs_method".toList "  NAT".toList (by simp [List.replicate])
      (by decide +kernel) (by decide) (by decide) (by decide)
  · exact skips_word 4 "protocol".toList "    TCP".toList (by simp [List.replicate])
      (by decide +kernel) (by decide) (by decide) (by decide)
  · exact skips_word 4 "persistence_timeout".toList (Nat.toDigits 10 args.persistence_timeout)
      (by simp [List.replicate]) (by decide +kernel) (by decide) (by decide)
      (not_newline_toDigits _)
  · exact skips_word 4 "quorum".toList "      1".toList (by simp [List.replicate])
      (by decide +kernel) (by decide) (by decide) (by decide)

/-- The lines of a `track_file` block as words. -/
def trackFileWords (ip : Ipv4Addr) : List (List (List Char)) :=
  ["track_file".toList, backendName ip, ['{']] :: (trackFileBlock ip).2 ++ [[['}']]]

/-- The lines of a `real_server` block as words. -/
def realServerWords (ip : Ipv4Addr) : List (List (List Char)) :=
  ["real_server".toList, ip.display, "21".toList, ['{']] :: (realServerBlock ip).2 ++ [[['}']]]

theorem backendName_eq (ip : Ipv4Addr) : backendName ip = "backend_".toList ++ ip.display := rfl

theorem plain_append {u v : List Char} (hu : Plain u)
    (hv : ∀ c ∈ v, isWhitespace c = false ∧ isMark c = false) : Plain (u ++ v) := by
  refine ⟨by simp [hu.1], fun c hc => ?_⟩
  rcases List.mem_append.mp hc with hc | hc
  · exact hu.2 c hc
  · exact hv c hc

theorem plain_address (ip : Ipv4Addr) : Plain ip.display := by
  refine ⟨?_, plain_display ip⟩
  simp [Ipv4Addr.display]

theorem plain_backendName (ip : Ipv4Addr) : Plain (backendName ip) :=
  plain_append (by decide +kernel) (plain_display ip)

theorem plain_quotedPath (ip : Ipv4Addr) :
    Plain ('"' :: (weightPath WEIGHTS_DIR ip ++ ['"'])) := by
  have hpath : '"' :: (weightPath WEIGHTS_DIR ip ++ ['"']) =
      "\"/etc/keepalived/weights/backend-".toList ++ (ip.display ++ ".weight\"".toList) := by
    simp [weightPath, WEIGHTS_DIR, weightFile]
  rw [hpath]
  refine plain_append (by decide +kernel) fun c hc => ?_
  rcases List.mem_append.mp hc with hc | hc
  · exact plain_display ip c hc
  · have hsuffix : Plain ".weight\"".toList := by decide +kernel
    exact hsuffix.2 c hc

/-- Each line of a block is read as its words. -/
theorem directives_spaced {ls : List (List Char)} {lines : List (ℕ × List (List Char))}
    (hls : ls = lines.map fun l => spaced l.1 l.2) (h : ∀ l ∈ lines, ∀ w ∈ l.2, Plain w) :
    (∀ line ∈ ls, '\n' ∉ line) ∧ ls.map directive = lines.map Prod.snd := by
  subst hls
  constructor
  · intro line hline
    obtain ⟨l, hl, rfl⟩ := List.mem_map.mp hline
    exact not_newline_spaced l.1 (h l hl)
  · rw [List.map_map]
    exact List.map_congr_left fun l hl => directive_spaced l.1 (h l hl)

theorem directives_trackFile (ip : Ipv4Addr) : (∀ line ∈ trackFile ip, '\n' ∉ line) ∧
    (trackFile ip).map directive = trackFileWords ip := by
  have hlines : trackFile ip = [(0, ["track_file".toList, backendName ip, ['{']]),
      (4, ["file".toList, '"' :: (weightPath WEIGHTS_DIR ip ++ ['"'])]),
      (0, [['}']])].map fun l => spaced l.1 l.2 := by
    simp [trackFile, spaced, backendName_eq, weightPath, WEIGHTS_DIR, weightFile, List.replicate]
  have hname := plain_backendName ip
  have hpath := plain_quotedPath ip
  refine directives_spaced hlines ?_
  simp only [List.forall_mem_cons, List.not_mem_nil, false_implies, implies_true, and_true]
  exact ⟨⟨by decide +kernel, hname, by decide⟩, ⟨by decide +kernel, hpath⟩, by decide⟩

theorem directives_realServer (ip : Ipv4Addr) : (∀ line ∈ realServer ip, '\n' ∉ line) ∧
    (realServer ip).map directive = realServerWords ip := by
  have hlines : realServer ip = [(4, ["real_server".toList, ip.display, "21".toList, ['{']]),
      (8, ["weight".toList, "1".toList]), (8, ["FILE_CHECK".toList, ['{']]),
      (12, ["track_file".toList, backendName ip]), (12, ["weight".toList, "1".toList]),
      (8, [['}']]), (4, [['}']])].map fun l => spaced l.1 l.2 := by
    simp [realServer, spaced, backendName_eq, List.replicate]
  have hname := plain_backendName ip
  have haddress := plain_address ip
  refine directives_spaced hlines ?_
  simp only [List.forall_mem_cons, List.not_mem_nil, false_implies, implies_true, and_true]
  exact ⟨⟨by decide +kernel, haddress, by decide +kernel, by decide⟩,
    ⟨by decide +kernel, by decide +kernel⟩, ⟨by decide +kernel, by decide⟩,
    ⟨by decide +kernel, hname⟩, ⟨by decide +kernel, by decide +kernel⟩, by decide, by decide⟩

/-- The words of a backend are no brace. -/
theorem words_ne_brace (ip : Ipv4Addr) : backendName ip ≠ ['{'] ∧
    '"' :: (weightPath WEIGHTS_DIR ip ++ ['"']) ≠ ['{'] := by
  constructor
  · rw [backendName_eq]
    simp
  · simp

theorem blocks_trackFile (ip : Ipv4Addr) (rest : List Directive) :
    blocks "track_file".toList (trackFileWords ip ++ rest) =
      trackFileBlock ip :: blocks "track_file".toList rest := by
  obtain ⟨-, hpath⟩ := words_ne_brace ip
  unfold trackFileWords trackFileBlock
  generalize '"' :: (weightPath WEIGHTS_DIR ip ++ ['"']) = path at hpath ⊢
  generalize backendName ip = name
  simp [blocks, openArgs, blockBody, hpath]

theorem blocks_realServer (ip : Ipv4Addr) (rest : List Directive) :
    blocks "real_server".toList (realServerWords ip ++ rest) =
      realServerBlock ip :: blocks "real_server".toList rest := by
  obtain ⟨hname, -⟩ := words_ne_brace ip
  unfold realServerWords realServerBlock
  generalize backendName ip = name at hname ⊢
  simp [blocks, openArgs, blockBody, hname]

theorem openArgs_realServer (ip : Ipv4Addr) :
    ∀ d ∈ realServerWords ip, openArgs "track_file".toList d = none := by
  obtain ⟨hname, -⟩ := words_ne_brace ip
  unfold realServerWords realServerBlock
  generalize backendName ip = name at hname ⊢
  have hline : openArgs "track_file".toList ["track_file".toList, name] = none := by
    simp [openArgs, hname]
  simp only [List.cons_append, List.nil_append, List.forall_mem_cons, List.not_mem_nil,
    false_implies, implies_true, and_true]
  exact ⟨openArgs_eq_none (by simp), openArgs_eq_none (by simp), openArgs_eq_none (by simp), hline,
    openArgs_eq_none (by simp), openArgs_eq_none (by simp), openArgs_eq_none (by simp)⟩

theorem openArgs_trackFile (ip : Ipv4Addr) :
    ∀ d ∈ trackFileWords ip, openArgs "real_server".toList d = none := by
  unfold trackFileWords trackFileBlock
  generalize backendName ip = name
  simp only [List.cons_append, List.nil_append, List.forall_mem_cons, List.not_mem_nil,
    false_implies, implies_true, and_true]
  exact ⟨openArgs_eq_none (by simp), openArgs_eq_none (by simp), openArgs_eq_none (by simp)⟩

/-- What keepalived reads of a file with the blocks of some backends. -/
theorem blocks_file {above between : List (List Char)} (habove : ∀ line ∈ above, Skips line)
    (hbetween : ∀ line ∈ between, Skips line) (ips : List Ipv4Addr) :
    let text := unlines above ++ (unlines (ips.flatMap trackFile) ++ (unlines between ++
      (unlines (ips.flatMap realServer) ++ unlines ["\x7d".toList])))
    blocks "track_file".toList (directives text) = ips.map trackFileBlock ∧
      blocks "real_server".toList (directives text) = ips.map realServerBlock := by
  have hfiles : ∀ line ∈ ips.flatMap trackFile, '\n' ∉ line := by
    intro line hline
    obtain ⟨ip, -, hline⟩ := List.mem_flatMap.mp hline
    exact (directives_trackFile ip).1 line hline
  have hservers : ∀ line ∈ ips.flatMap realServer, '\n' ∉ line := by
    intro line hline
    obtain ⟨ip, -, hline⟩ := List.mem_flatMap.mp hline
    exact (directives_realServer ip).1 line hline
  have hend : directives (unlines ["\x7d".toList]) = [[['}']], []] := by decide +kernel
  have hwords : directives (unlines above ++ (unlines (ips.flatMap trackFile) ++ (unlines between ++
      (unlines (ips.flatMap realServer) ++ unlines ["\x7d".toList])))) =
      above.map directive ++ (ips.flatMap trackFileWords ++ (between.map directive ++
        (ips.flatMap realServerWords ++ [[['}']], []]))) := by
    rw [directives_unlines fun line hline => (habove line hline).newline,
      directives_unlines hfiles,
      directives_unlines fun line hline => (hbetween line hline).newline,
      directives_unlines hservers, hend, List.map_flatMap, List.map_flatMap]
    simp only [(directives_trackFile _).2, (directives_realServer _).2]
  have hclose : ∀ kind : List Char, kind ≠ ['}'] → blocks kind [[['}']], []] = [] := by
    intro kind hkind
    simp [blocks, openArgs, hkind.symm]
  intro text
  rw [hwords]
  constructor
  · have hserver : ∀ d ∈ ips.flatMap realServerWords, openArgs "track_file".toList d = none := by
      intro d hd
      obtain ⟨ip, -, hd⟩ := List.mem_flatMap.mp hd
      exact openArgs_realServer ip d hd
    rw [blocks_append (List.forall_mem_map.mpr fun line hline => (habove line hline).track_file),
      blocks_flatMap blocks_trackFile,
      blocks_append (List.forall_mem_map.mpr fun line hline => (hbetween line hline).track_file),
      blocks_append hserver, hclose _ (by decide), List.append_nil]
  · have hfile : ∀ d ∈ ips.flatMap trackFileWords, openArgs "real_server".toList d = none := by
      intro d hd
      obtain ⟨ip, -, hd⟩ := List.mem_flatMap.mp hd
      exact openArgs_trackFile ip d hd
    rw [blocks_append (List.forall_mem_map.mpr fun line hline => (habove line hline).real_server),
      blocks_append hfile,
      blocks_append (List.forall_mem_map.mpr fun line hline => (hbetween line hline).real_server),
      blocks_flatMap blocks_realServer, hclose _ (by decide), List.append_nil]

end Reading

section Pool

variable {args : Args} {data : InstanceData} {ts : OneLine}

/-- The file for a range of slots. -/
def poolText (args : Args) (data : InstanceData) (ts : OneLine) : List Char :=
  let ips := (List.range data.slot_count).map data.slot_network.ipForSlot
  unlines (head data ts (data.slot_network.ipForSlot 0,
      data.slot_network.ipForSlot (data.slot_count - 1))) ++
    (unlines (ips.flatMap trackFile) ++ (unlines (virtualServer args data) ++
      (unlines (ips.flatMap realServer) ++ unlines ["\x7d".toList])))

theorem renderBackendsConf_of_fits (build : Build) (h : data.Fits) :
    renderBackendsConf build args data ts = some (poolText args data ts) := by
  rw [renderBackendsConf, slotRange_of_fits h, pushBlocks_of_fits h, pushBlocks_of_fits h]
  simp only [Option.bind_eq_bind, Option.bind_some, Option.pure_def, poolText, List.flatMap_map]

theorem generate_of_fits (build : Build) (h : data.Fits) : generate build args data ts =
    some (slotsText data (data.slot_network.ipForSlot 0,
      data.slot_network.ipForSlot (data.slot_count - 1)), poolText args data ts) := by
  rw [generate, slotsLine, slotRange_of_fits h, renderBackendsConf_of_fits build h]
  rfl

theorem fits_of_generate {out : List Char × List Char}
    (h : generate .debug args data ts = some out) : data.Fits := by
  simp only [generate, slotsLine, Option.bind_eq_bind, Option.bind_eq_some_iff] at h
  obtain ⟨line, ⟨range, hrange, -⟩, -⟩ := h
  exact fits_of_slotRange hrange

theorem matchesDaemon_poolText (h : data.Fits) :
    MatchesDaemon data.slot_network data.slot_count (poolText args data ts) := by
  have hblocks := blocks_file (skips_head data ts (data.slot_network.ipForSlot 0,
    data.slot_network.ipForSlot (data.slot_count - 1))) (skips_virtualServer args data)
    ((List.range data.slot_count).map data.slot_network.ipForSlot)
  simp only [List.map_map] at hblocks
  refine ⟨hblocks.1, hblocks.2, List.nodup_range.map_on ?_⟩
  intro slot hslot slot' hslot' heq
  have hlt : ∀ s ∈ List.range data.slot_count, s < 2 ^ 32 := by
    intro s hs
    exact lt_of_le_of_lt (Nat.le_add_left _ _) (h.slot (List.mem_range.mp hs))
  have hdisplay := List.append_cancel_left heq
  exact data.slot_network.ipForSlot_injOn (hlt slot hslot) (hlt slot' hslot')
    (display_injOn (data.slot_network.ipForSlot_lt slot) (data.slot_network.ipForSlot_lt slot')
      hdisplay)

end Pool

/-- The pool is generated without overflow, and is the one of the daemon, exactly when there is a
slot and the address of the last one fits into 32 bits. -/
theorem generatesPool_iff (args : Args) (data : InstanceData) (ts : OneLine) :
    GeneratesPool args data ts ↔ 1 ≤ data.slot_count ∧
      data.slot_network.base + data.slot_network.offset + (data.slot_count - 1) < 2 ^ 32 := by
  constructor
  · rintro ⟨line, conf, hdebug, -, -⟩
    exact fits_of_generate hdebug
  · intro h
    exact ⟨_, _, generate_of_fits .debug h, generate_of_fits .release h, matchesDaemon_poolText h⟩

/-- Instance data of a load balancer with a number of slots from 10.0.0.20 on. -/
def exampleData (slot_count : ℕ) : InstanceData where
  instance_id := ⟨"i-0".toList, by decide⟩
  vip_outside := ⟨"172.16.29.100".toList, by decide⟩
  slot_network := exampleNet
  slot_count := slot_count

/-- The defaults of the arguments. -/
def defaultArgs : Args := ⟨⟨"wlc".toList, by decide⟩, 30⟩

theorem no_slots_underflow : ¬ GeneratesPool defaultArgs (exampleData 0) ⟨[], by decide⟩ ∧
    ¬ GeneratesPool defaultArgs (exampleData (2 ^ 32 - 1)) ⟨[], by decide⟩ := by
  constructor
  · rintro ⟨line, conf, hdebug, -, -⟩
    have hfits := fits_of_generate hdebug
    exact absurd hfits.1 (by decide)
  · rintro ⟨line, conf, hdebug, -, -⟩
    have hfits := fits_of_generate hdebug
    exact absurd hfits.2 (by decide)

end Aerosuite.Pulse
