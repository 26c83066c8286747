import Aerosuite.Library.Lines
import Aerosuite.Scale.Snapshot
import Mathlib.Tactic.Ring

/-! Tables in the format of `/proc/net/ip_vs`, and what `ipvs::parse` reads from them: the real
servers and nothing else, sorted by address and otherwise in the order of the file. -/

namespace Aerosuite.Scale

open Text

section Hex

/-- A hexadecimal digit, in upper or lower case. -/
def hexDigit (upper : Bool) (d : ℕ) : Char :=
  if upper then (Nat.digitChar d).toUpper else Nat.digitChar d

/-- A number in hexadecimal, the highest digit first, with the case of each digit. -/
def hexText : List Bool → ℕ → List Char
  | [], _ => []
  | upper :: cases, n => hexDigit upper (n / 16 ^ cases.length % 16) :: hexText cases n

theorem hexDigit_spec : ∀ upper : Bool, ∀ d < 16, toDigit 16 (hexDigit upper d) = some d ∧
    isWhitespace (hexDigit upper d) = false ∧ hexDigit upper d ≠ ':' ∧ hexDigit upper d ≠ '+' := by
  decide

theorem length_hexText (cases : List Bool) (n : ℕ) :
    (hexText cases n).length = cases.length := by
  induction cases with
  | nil => rfl
  | cons upper cases ih => simp [hexText, ih]

theorem mem_hexText {cases : List Bool} {n : ℕ} {c : Char} (h : c ∈ hexText cases n) :
    isWhitespace c = false ∧ c ≠ ':' ∧ c ≠ '+' := by
  induction cases with
  | nil => cases h
  | cons upper cases ih =>
    rcases List.mem_cons.mp h with rfl | h
    · exact (hexDigit_spec upper _ (Nat.mod_lt _ (by decide))).2
    · exact ih h

/-- The digits stand for the number, the highest one first. -/
theorem digitsValue_hexText (cases : List Bool) (m n : ℕ) :
    digitsValue 16 m (hexText cases n) = some (m * 16 ^ cases.length + n % 16 ^ cases.length) := by
  induction cases generalizing m with
  | nil => simp [hexText, digitsValue, Nat.mod_one]
  | cons upper cases ih =>
    have hdigit := (hexDigit_spec upper (n / 16 ^ cases.length % 16)
      (Nat.mod_lt _ (by decide))).1
    rw [hexText, digitsValue, hdigit]
    simp only
    rw [ih, List.length_cons, Nat.pow_succ, Nat.mod_mul, Option.some.injEq]
    ring

end Hex

/-- What separates two words of a line. -/
abbrev Gap := Blank × List Blank

def arrow : Word := plainWord "->".toList (by decide +kernel)

theorem isWhitespace_digitChar : ∀ d < 10, isWhitespace (Nat.digitChar d) = false := by decide

def decimalWord (n : ℕ) : Word :=
  ⟨Nat.toDigits 10 n, Nat.toDigits_ne_nil, fun c hc => by
    have hdigit := Nat.isDigit_of_mem_toDigits (by decide) (by decide) hc
    obtain ⟨d, hd, rfl, -⟩ := digitChar_of_isDigit hdigit
    exact isWhitespace_digitChar d hd⟩

/-- A line `-> HHHHHHHH:PPPP Method Weight Active InAct`. -/
structure RealServer where
  ip : Ipv4Addr
  ip_lt : ip < 2 ^ 32
  ipCases : List Bool
  ipCases_length : ipCases.length = 8
  port : ℕ
  portCases : List Bool
  portCases_length : portCases.length = 4
  method : Word
  weight : ℕ
  active : ℕ
  active_lt : active < 2 ^ 32
  inactive : ℕ
  inactive_lt : inactive < 2 ^ 32
  lead : List Blank
  beforeAddress : Gap
  beforeMethod : Gap
  beforeWeight : Gap
  beforeActive : Gap
  beforeInactive : Gap
  trail : List Blank

namespace RealServer

variable (r : RealServer)

def address : List Char := hexText r.ipCases r.ip ++ ':' :: hexText r.portCases r.port

theorem address_word : r.address ≠ [] ∧ ∀ c ∈ r.address, isWhitespace c = false := by
  refine ⟨by simp [address], fun c hc => ?_⟩
  rcases List.mem_append.mp hc with hc | hc
  · exact (mem_hexText hc).1
  · rcases List.mem_cons.mp hc with rfl | hc
    · decide
    · exact (mem_hexText hc).1

def columns : List (Gap × Word) :=
  [(r.beforeAddress, ⟨r.address, r.address_word⟩), (r.beforeMethod, r.method),
    (r.beforeWeight, decimalWord r.weight), (r.beforeActive, decimalWord r.active),
    (r.beforeInactive, decimalWord r.inactive)]

def line : List Char := blanks r.lead ++ (words arrow r.columns ++ blanks r.trail)

/-- What the line says. -/
def entry : IpvsBackend := ⟨r.ip, r.active, r.inactive⟩

end RealServer

/-- The line `-> RemoteAddress:Port Forward Weight ActiveConn InActConn`. -/
structure HeaderLine where
  lead : List Blank
  beforeAddress : Gap
  beforeForward : Gap
  beforeWeight : Gap
  beforeActive : Gap
  beforeInactive : Gap
  trail : List Blank

def HeaderLine.columns (h : HeaderLine) : List (Gap × Word) :=
  [(h.beforeAddress, plainWord "RemoteAddress:Port".toList (by decide +kernel)),
    (h.beforeForward, plainWord "Forward".toList (by decide +kernel)),
    (h.beforeWeight, plainWord "Weight".toList (by decide +kernel)),
    (h.beforeActive, plainWord "ActiveConn".toList (by decide +kernel)),
    (h.beforeInactive, plainWord "InActConn".toList (by decide +kernel))]

def HeaderLine.line (h : HeaderLine) : List Char :=
  blanks h.lead ++ (words arrow h.columns ++ blanks h.trail)

/-- A line that does not begin with an arrow: the version, the header of the virtual services, or
a virtual service. -/
structure PlainLine where
  line : List Char
  not_newline : '\n' ∉ line
  not_arrow : ¬ "->".toList <+: trim line

/-- A table of `/proc/net/ip_vs`. -/
structure IpvsTable where
  version : PlainLine
  columns : PlainLine
  header : HeaderLine
  services : List (PlainLine × List RealServer)

namespace IpvsTable

def text (t : IpvsTable) : String :=
  String.ofList (unlines (t.version.line :: t.columns.line :: t.header.line ::
    t.services.flatMap fun s => s.1.line :: s.2.map RealServer.line))

def servers (t : IpvsTable) : List RealServer := t.services.flatMap Prod.snd

end IpvsTable

section Rows

theorem parseRow_congr {line line' : List Char} (h : trim line = trim line') :
    parseRow line = parseRow line' := by
  unfold parseRow
  rw [h]

theorem PlainLine.parse (l : PlainLine) : parseRow l.line = none := by
  have harrow := l.not_arrow
  rw [← List.isPrefixOf_iff_prefix, Bool.not_eq_true] at harrow
  unfold parseRow
  simp only [harrow]
  rfl

/-- White space around the words of a line is trimmed. -/
theorem trim_words (lead trail : List Blank) (w : Word) (rest : List (Gap × Word)) :
    trim (blanks lead ++ (words w rest ++ blanks trail)) = words w rest := by
  obtain ⟨s, hs⟩ := words_head w rest
  obtain ⟨s', w', hs'⟩ := words_last w rest
  have hne : words w rest ≠ [] := by simp [hs, w.2.1]
  apply trim_append (fun c => isWhitespace_of_mem_blanks) (fun c => isWhitespace_of_mem_blanks)
  · intro c hc
    rw [hs, List.head?_append_of_ne_nil _ w.2.1] at hc
    exact w.2.2 c (List.mem_of_mem_head? hc)
  · intro c hc
    rw [hs', List.getLast?_append_of_ne_nil _ w'.2.1] at hc
    exact w'.2.2 c (List.mem_of_mem_getLast? hc)
  · exact hne

/-- How a line is read that consists of an arrow and five words. -/
theorem parseRow_words (lead trail : List Blank) {g₁ g₂ g₃ g₄ g₅ : Gap} (w₁ w₂ w₃ w₄ w₅ : Word) :
    parseRow (blanks lead ++ (words arrow [(g₁, w₁), (g₂, w₂), (g₃, w₃), (g₄, w₄), (g₅, w₅)] ++
        blanks trail)) =
      (splitOnce ':' w₁).bind fun pair => (parseHexIp pair.1).map fun ip =>
        ⟨ip, (parseU32 w₄).getD 0, (parseU32 w₅).getD 0⟩ := by
  have harrow : "->".toList.isPrefixOf
      (words arrow [(g₁, w₁), (g₂, w₂), (g₃, w₃), (g₄, w₄), (g₅, w₅)]) = true := by
    obtain ⟨s, hs⟩ := words_head arrow [(g₁, w₁), (g₂, w₂), (g₃, w₃), (g₄, w₄), (g₅, w₅)]
    rw [hs, List.isPrefixOf_iff_prefix]
    exact List.prefix_append _ _
  unfold parseRow
  simp only [trim_words, harrow, splitWhitespace_words, List.map_cons, List.map_nil]
  cases splitOnce ':' w₁.1 with
  | none => rfl
  | some pair => cases h : parseHexIp pair.1 <;> simp [h]

theorem parseHexIp_hexText {cases : List Bool} (hlen : cases.length = 8) {ip : Ipv4Addr}
    (hip : ip < 2 ^ 32) : parseHexIp (hexText cases ip) = some ip := by
  have hplus : stripPrefix ['+'] (hexText cases ip) = none := by
    unfold stripPrefix
    rw [if_neg]
    rw [List.isPrefixOf_iff_prefix]
    exact fun hpre => (mem_hexText (hpre.subset List.mem_cons_self)).2.2 rfl
  have hpow : 16 ^ cases.length = 2 ^ 32 := by rw [hlen]; norm_num
  have hvalue := digitsValue_hexText cases 0 ip
  rw [hpow, Nat.zero_mul, Nat.zero_add, Nat.mod_eq_of_lt hip] at hvalue
  unfold parseHexIp parseUint
  rw [hplus, Option.getD_none]
  split
  · next hnil =>
    have hzero := congrArg List.length hnil
    rw [length_hexText, hlen] at hzero
    cases hzero
  · rw [hvalue]
    exact Option.filter_eq_some_iff.mpr ⟨rfl, by simpa using Nat.le_pred_of_lt hip⟩

theorem RealServer.parse (r : RealServer) : parseRow r.line = some r.entry := by
  have hcolon : ':' ∉ hexText r.ipCases r.ip := fun h => (mem_hexText h).2.1 rfl
  have hactive : parseU32 (decimalWord r.active) = some r.active :=
    parseUint_toDigits (Nat.le_pred_of_lt r.active_lt)
  have hinactive : parseU32 (decimalWord r.inactive) = some r.inactive :=
    parseUint_toDigits (Nat.le_pred_of_lt r.inactive_lt)
  rw [RealServer.line, RealServer.columns, parseRow_words, hactive, hinactive]
  simp only [RealServer.address]
  rw [splitOnce_append hcolon]
  simp only [Option.bind_some, parseHexIp_hexText r.ipCases_length r.ip_lt]
  rfl

/-- The header of the real servers has no address. -/
theorem HeaderLine.parse (h : HeaderLine) : parseRow h.line = none := by
  have hsplit : splitOnce ':' "RemoteAddress:Port".toList =
      some ("RemoteAddress".toList, "Port".toList) := by decide +kernel
  have hip : parseHexIp "RemoteAddress".toList = none := by decide +kernel
  rw [HeaderLine.line, HeaderLine.columns, parseRow_words]
  refine (congrArg (Option.bind · _) hsplit).trans ?_
  rw [Option.bind_some, hip]
  rfl

theorem not_newline_line (lead trail : List Blank) (w : Word) (rest : List (Gap × Word)) :
    '\n' ∉ blanks lead ++ (words w rest ++ blanks trail) := by
  simp [not_newline_of_mem_blanks, not_newline_words]

theorem filterMap_parseRow_unlines {ls : List (List Char)} (h : ∀ line ∈ ls, '\n' ∉ line) :
    (lines (unlines ls)).filterMap parseRow = ls.filterMap parseRow := by
  rw [lines_unlines h, List.filterMap_map]
  exact List.filterMap_congr fun line _ => parseRow_congr (trim_stripSuffix line)

/-- The rows of a table are its real servers, in the order of the file. -/
theorem IpvsTable.rows (t : IpvsTable) :
    (lines t.text.toList).filterMap parseRow = t.servers.map RealServer.entry := by
  have hservices : ∀ services : List (PlainLine × List RealServer),
      (services.flatMap fun s => s.1.line :: s.2.map RealServer.line).filterMap parseRow =
        (services.flatMap Prod.snd).map RealServer.entry := by
    intro services
    induction services with
    | nil => rfl
    | cons s services ih =>
      have hservers : (s.2.map RealServer.line).filterMap parseRow =
          s.2.map RealServer.entry := by
        rw [List.filterMap_map, ← List.filterMap_eq_map]
        exact List.filterMap_congr fun r _ => r.parse
      rw [List.flatMap_cons, List.flatMap_cons, List.filterMap_append, List.map_append, ih,
        List.filterMap_cons_none s.1.parse, hservers]
  rw [text, String.toList_ofList, filterMap_parseRow_unlines, List.filterMap_cons_none
    t.version.parse, List.filterMap_cons_none t.columns.parse, List.filterMap_cons_none
    t.header.parse, hservices, servers]
  intro line hline
  simp only [List.mem_cons, List.mem_flatMap, List.mem_map] at hline
  rcases hline with rfl | rfl | rfl | ⟨s, -, rfl | ⟨r, -, rfl⟩⟩
  · exact t.version.not_newline
  · exact t.columns.not_newline
  · exact not_newline_line _ _ _ _
  · exact s.1.not_newline
  · exact not_newline_line _ _ _ _

/-- Sorting by address keeps the order of the entries of one address. -/
theorem filter_insertionSort (entries : List IpvsBackend) (ip : Ipv4Addr) :
    (entries.insertionSort fun a b => a.ip ≤ b.ip).filter (fun e => e.ip = ip) =
      entries.filter fun e => e.ip = ip := by
  have hequal : (entries.filter fun e => e.ip = ip).Pairwise fun a b => a.ip ≤ b.ip := by
    refine List.pairwise_of_forall_mem_list fun a ha b hb => ?_
    have ha := (List.mem_filter.mp ha).2
    have hb := (List.mem_filter.mp hb).2
    simp only [decide_eq_true_eq] at ha hb
    exact le_of_eq (ha.trans hb.symm)
  have hsub := (List.sublist_insertionSort hequal List.filter_sublist).filter fun e => e.ip = ip
  rw [List.filter_filter] at hsub
  simp only [Bool.and_self] at hsub
  have hperm := (List.perm_insertionSort (fun a b => a.ip ≤ b.ip) entries).filter fun e => e.ip = ip
  exact (hsub.eq_of_length hperm.length_eq.symm).symm

end Rows

/-- `ipvs::parse` returns one entry for each real server of a table, in the order of the addresses
and in the order of the file among equal ones. -/
theorem ipvs_parse_exact (t : IpvsTable) :
    (parseIpvs t.text).Perm (t.servers.map RealServer.entry) ∧
    (parseIpvs t.text).Pairwise (fun a b => a.ip ≤ b.ip) ∧
    ∀ ip, (parseIpvs t.text).filter (fun e => e.ip = ip) =
      (t.servers.map RealServer.entry).filter fun e => e.ip = ip := by
  rw [parseIpvs, t.rows]
  exact ⟨List.perm_insertionSort _ _, List.pairwise_insertionSort _ _, filter_insertionSort _⟩

section Sample

def space : Blank := ⟨' ', by decide⟩

/-- As many blanks as a column needs. -/
def gap (n : ℕ) : Gap := (space, List.replicate n space)

def plainLine (line : String)
    (h : '\n' ∉ line.toList ∧ ¬ "->".toList <+: trim line.toList) : PlainLine :=
  ⟨line.toList, h.1, h.2⟩

theorem subnet_lt (host : Fin 256) : 0xAC102000 + host.val < 2 ^ 32 := by omega

/-- A server of the network 172.16.32.0/24. -/
def sampleServer (host weight : Fin 256) (active inactive : Fin 10) : RealServer where
  ip := 0xAC102000 + host.val
  ip_lt := subnet_lt host
  ipCases := List.replicate 8 true
  ipCases_length := rfl
  port := 21
  portCases := List.replicate 4 true
  portCases_length := rfl
  method := plainWord "Masq".toList (by decide +kernel)
  weight := weight
  active := active
  active_lt := by omega
  inactive := inactive
  inactive_lt := by omega
  lead := [space, space]
  beforeAddress := gap 0
  beforeMethod := gap 5
  beforeWeight := gap 3
  beforeActive := gap 5
  beforeInactive := gap 9
  trail := []

/-- The table of a load balancer with one virtual service. -/
def sampleIpvs : IpvsTable where
  version := plainLine "IP Virtual Server version 1.2.1 (size=4096)" (by decide +kernel)
  columns := plainLine "Prot LocalAddress:Port Scheduler Flags" (by decide +kernel)
  header := ⟨[space, space], gap 0, gap 0, gap 0, gap 0, gap 0, []⟩
  services := [(plainLine "TCP  AC101D64:0015 wlc  persistent 30000 FFFFFFFF" (by decide +kernel),
    [sampleServer 39 0 0 0, sampleServer 21 1 3 1, sampleServer 20 1 5 2])]

example : sampleIpvs.servers.map RealServer.line =
    ["  -> AC102027:0015      Masq    0      0          0".toList,
      "  -> AC102015:0015      Masq    1      3          1".toList,
      "  -> AC102014:0015      Masq    1      5          2".toList] := by decide +kernel

example : parseIpvs sampleIpvs.text =
    [⟨0xAC102014, 5, 2⟩, ⟨0xAC102015, 3, 1⟩, ⟨0xAC102027, 0, 0⟩] := by
  rw [parseIpvs, IpvsTable.rows]
  decide +kernel

end Sample

end Aerosuite.Scale
