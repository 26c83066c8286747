import Aerosuite.Scale.Cleanup

/-! What the IPVS table says about a backend that section 2.1 terminates.  The snapshot shows 0
connections for a table that cannot be read, for an address without row and for a counter that does
not parse, and it shows only the first of several rows. -/

namespace Aerosuite.Scale

open Program

/-- The columns of a line that starts a real server. -/
def rowColumns (line : List Char) : Option (List (List Char)) :=
  let trimmed := Text.trim line
  if "->".toList.isPrefixOf trimmed then some (Text.splitWhitespace trimmed) else none

/-- The address of a row: the number before the first colon of its second column. -/
def rowIp (columns : List (List Char)) : Option Ipv4Addr :=
  columns[1]?.bind fun addr_port => parseHexIp
    (((Text.splitOnce ':' addr_port).map Prod.fst).getD addr_port)

/-- The number in the column `ActiveConn` of a row, if it parses. -/
def rowActive (columns : List (List Char)) : Option ℕ := columns[4]?.bind Text.parseU32

/-- The rows of a table for an address, malformed ones included. -/
def rowsFor (table : String) (ip : Ipv4Addr) : List (List (List Char)) :=
  ((Text.lines table.toList).filterMap rowColumns).filter fun columns => rowIp columns = some ip

/-- The table was read, it has a row for the address, and each such row counts no connection. -/
def EmptyByTable (table : Except String String) (ip : Ipv4Addr) : Prop :=
  ∃ text, table = .ok text ∧ rowsFor text ip ≠ [] ∧ ∀ row ∈ rowsFor text ip, rowActive row = some 0

/-- A row with all six columns and a port. -/
def WellFormedRow (columns : List (List Char)) : Bool :=
  6 ≤ columns.length && (columns[1]?.bind (Text.splitOnce ':')).isSome

/-- The first well-formed row of the table for the address counts a connection. -/
def FirstRowBusy (table : Except String String) (ip : Ipv4Addr) : Prop :=
  ∃ text row n, table = .ok text ∧ (rowsFor text ip).find? WellFormedRow = some row ∧
    rowActive row = some n ∧ n ≠ 0

section Join

/-- A line is accepted when it is a well-formed row with an address. -/
theorem parseRow_eq (line : List Char) : parseRow line =
    (rowColumns line).bind fun columns =>
      if WellFormedRow columns then
        (rowIp columns).map fun ip =>
          ⟨ip, (rowActive columns).getD 0, (columns[5]?.bind Text.parseU32).getD 0⟩
      else none := by
  unfold parseRow rowColumns
  dsimp only
  cases hpre : "->".toList.isPrefixOf (Text.trim line) with
  | false => rfl
  | true =>
    simp only [Bool.not_true, Bool.false_eq_true, if_false, if_true, Option.bind_some]
    rcases Text.splitWhitespace (Text.trim line) with
      _ | ⟨c₀, _ | ⟨c₁, _ | ⟨c₂, _ | ⟨c₃, _ | ⟨c₄, _ | ⟨c₅, cs⟩⟩⟩⟩⟩⟩
    case cons.cons.cons.cons.cons.cons =>
      cases hsplit : Text.splitOnce ':' c₁ with
      | none => simp [WellFormedRow, hsplit]
      | some pair =>
        cases hip : parseHexIp pair.1 with
        | none => simp [WellFormedRow, hsplit, rowIp, hip]
        | some ip => simp [WellFormedRow, hsplit, rowIp, hip, rowActive]
    all_goals simp [WellFormedRow]

theorem find_orderedInsert (entry : IpvsBackend) (entries : List IpvsBackend) (ip : Ipv4Addr) :
    (entries.orderedInsert (fun a b => a.ip ≤ b.ip) entry).find? (fun i => i.ip = ip) =
      (entry :: entries).find? fun i => i.ip = ip := by
  induction entries with
  | nil => rfl
  | cons e entries ih =>
    rw [List.orderedInsert]
    split
    · rfl
    · next hle =>
      rw [List.find?_cons, ih]
      by_cases he : e.ip = ip
      · have hne : entry.ip ≠ ip := by
          rintro rfl
          exact hle (le_of_eq he.symm)
        simp [he, hne]
      · simp only [he, decide_false]
        rw [List.find?_cons, List.find?_cons]
        simp [he]

theorem find_insertionSort (entries : List IpvsBackend) (ip : Ipv4Addr) :
    (entries.insertionSort fun a b => a.ip ≤ b.ip).find? (fun i => i.ip = ip) =
      entries.find? fun i => i.ip = ip := by
  induction entries with
  | nil => rfl
  | cons e entries ih =>
    rw [List.insertionSort_cons, find_orderedInsert, List.find?_cons, ih, List.find?_cons]

/-- The connections that the snapshot shows for an address are those of the first well-formed row,
where a counter that does not parse stands for 0. -/
theorem find_parseIpvs (text : String) (ip : Ipv4Addr) :
    (((parseIpvs text).find? fun i => i.ip = ip).map IpvsBackend.active_connections) =
      (((rowsFor text ip).find? WellFormedRow).map fun row => (rowActive row).getD 0) := by
  rw [parseIpvs, find_insertionSort, rowsFor]
  induction Text.lines text.toList with
  | nil => rfl
  | cons line lines ih =>
    cases hcols : rowColumns line with
    | none =>
      have hrow : parseRow line = none := by rw [parseRow_eq, hcols, Option.bind_none]
      rw [List.filterMap_cons_none hrow, List.filterMap_cons_none hcols, ih]
    | some columns =>
      rw [List.filterMap_cons_some hcols]
      by_cases hwf : WellFormedRow columns = true
      · cases hip : rowIp columns with
        | none =>
          have hrow : parseRow line = none := by simp [parseRow_eq, hcols, hip]
          rw [List.filterMap_cons_none hrow, List.filter_cons_of_neg (by simp [hip]), ih]
        | some ip' =>
          have hrow : parseRow line = some ⟨ip', (rowActive columns).getD 0,
              (columns[5]?.bind Text.parseU32).getD 0⟩ := by simp [parseRow_eq, hcols, hip, hwf]
          rw [List.filterMap_cons_some hrow]
          by_cases heq : ip' = ip
          · rw [List.filter_cons_of_pos (by simp [hip, heq]), List.find?_cons_of_pos hwf]
            simp [heq]
          · rw [List.filter_cons_of_neg (by simp [hip, heq]),
              List.find?_cons_of_neg (by simp [heq]), ih]
      · have hrow : parseRow line = none := by simp [parseRow_eq, hcols, hwf]
        rw [List.filterMap_cons_none hrow]
        by_cases hip : rowIp columns = some ip
        · rw [List.filter_cons_of_pos (by simp [hip]), List.find?_cons_of_neg hwf, ih]
        · rw [List.filter_cons_of_neg (by simp [hip]), ih]

/-- The cleanup sees a connection of a backend exactly when the first well-formed row counts one. -/
theorem activeConn_ne_zero {src : Sources} {b : BackendStatus} (hb : b ∈ src.snapshot.backends) :
    b.activeConn ≠ 0 ↔ FirstRowBusy src.table b.ip := by
  obtain ⟨w, -, rfl⟩ := Sources.exists_weight hb
  simp only [BackendStatus.activeConn, FirstRowBusy]
  cases src.table with
  | error e => simp [ipvsOf]
  | ok text =>
    rw [ipvsOf, find_parseIpvs]
    cases hfind : (rowsFor text w.ip).find? WellFormedRow with
    | none => simp [hfind]
    | some row => cases hrow : rowActive row <;> simp [hfind, hrow]

end Join

/-- In every run of section 2.1, a draining backend that is disabled and whose lease owner is asked
to terminate is empty by the table. -/
def TerminatesOnEvidence (src : Sources) (clock : PassClock) (decrement : Bool) : Prop :=
  ∀ t, Exec (section21 src.snapshot clock false decrement) t () →
    ∀ b ∈ src.snapshot.backends, ∀ l, b.lease = some l → b.weight_state = .draining →
      Eff.writeFile (weightFile b.ip) WEIGHT_DISABLED ∈ t.map Event.op →
      Eff.terminateInstance l.owner_instance_id decrement ∈ t.map Event.op →
      EmptyByTable src.table b.ip

/-- The live owner of a draining backend is at stake: section 2.1 runs, and the group is above its
minimum. -/
def AtStake (src : Sources) (l : SlotLease) (b : BackendStatus) : Prop :=
  src.snapshot.guardsPass = true ∧ src.snapshot.atMin = false ∧ src.snapshot.OwnerLive l ∧
    b ∈ src.snapshot.backends ∧ b.lease = some l ∧ b.weight_state = .draining

theorem AtStake.retire {src : Sources} {clock : PassClock} {l : SlotLease} {b : BackendStatus}
    (h : AtStake src l b) (hconn : b.activeConn = 0) :
    leaseAction src.snapshot clock l = .retire b.ip := by
  obtain ⟨-, hmin, hlive, hb, hlease, hdraining⟩ := h
  have hl := ((Sources.lease_eq_some_iff hb).mp hlease).1
  exact leaseAction_eq_retire.mpr ⟨hlive, b,
    (Sources.backendOf_eq_some_iff hl).mpr ⟨hb, hlease⟩, hdraining, hconn, hmin, rfl⟩

/-- A draining backend that is disabled in a run in which its owner is asked to terminate was at
stake, without a connection that the cleanup sees. -/
theorem atStake_of_run {src : Sources} {clock : PassClock} {decrement : Bool}
    {t : List (Event Eff Eff.Reply)} {b : BackendStatus} {l : SlotLease}
    (h : Exec (section21 src.snapshot clock false decrement) t ())
    (hb : b ∈ src.snapshot.backends) (hlease : b.lease = some l)
    (hdraining : b.weight_state = .draining)
    (hwrite : Eff.writeFile (weightFile b.ip) WEIGHT_DISABLED ∈ t.map Event.op)
    (hterm : Eff.terminateInstance l.owner_instance_id decrement ∈ t.map Event.op) :
    AtStake src l b ∧ b.activeConn = 0 := by
  have hreq : ∀ e ∈ t.map Event.op, e ∈ src.snapshot.requests21 clock decrement :=
    fun e he => section21_always.exec_op h he
  obtain ⟨hguards, l', hlease', haction⟩ := (writeFile_mem_requests21 hb).mp (hreq _ hwrite)
  obtain rfl := Option.some.inj (hlease.symm.trans hlease')
  rcases haction with ⟨hrelease | hretire, -⟩ | ⟨-, hvalue⟩
  · -- A dead owner is released, and no lease asks to terminate it.
    obtain ⟨-, hnotin, -⟩ := leaseAction_eq_release.mp hrelease
    obtain ⟨-, l'', -, hmem⟩ := mem_requests21.mp (hreq _ hterm)
    obtain ⟨⟨ip, hretire⟩, howner, -⟩ := terminate_mem_requests.mp hmem
    obtain ⟨⟨-, hin⟩, -⟩ := leaseAction_eq_retire.mp hretire
    rw [← howner] at hin
    exact absurd hin hnotin
  · obtain ⟨hlive, b', hb', -, hconn, hmin, -⟩ := leaseAction_eq_retire.mp hretire
    have hl := ((Sources.lease_eq_some_iff hb).mp hlease).1
    obtain rfl := Option.some.inj
      (((Sources.backendOf_eq_some_iff hl).mpr ⟨hb, hlease⟩).symm.trans hb')
    exact ⟨⟨hguards, hmin, hlive, hb, hlease, hdraining⟩, hconn⟩
  · exact absurd hvalue (by decide)

/-- Section 2.1 terminates the owners of draining backends on evidence exactly when each backend
that is at stake is seen busy or is empty by the table. -/
theorem terminatesOnEvidence_iff (src : Sources) (clock : PassClock) (decrement : Bool) :
    TerminatesOnEvidence src clock decrement ↔
      ∀ l b, AtStake src l b → FirstRowBusy src.table b.ip ∨ EmptyByTable src.table b.ip := by
  constructor
  · intro hall l b hstake
    obtain ⟨t, _, ht, hok⟩ := exists_exec_ok (section21 src.snapshot clock false decrement)
    by_cases hbusy : FirstRowBusy src.table b.ip
    · exact .inl hbusy
    · have hb := hstake.2.2.2.1
      have hconn : b.activeConn = 0 := by
        by_contra hne
        exact hbusy ((activeConn_ne_zero hb).mp hne)
      have hl := ((Sources.lease_eq_some_iff hb).mp hstake.2.2.2.2.1).1
      have hops : ∀ e ∈ (LeaseAction.retire b.ip).requests clock decrement l,
        e ∈ t.map Event.op := by
        intro e he
        rw [section21_requests ht hok, SystemSnapshot.requests21, if_pos hstake.1]
        exact List.mem_flatMap.mpr ⟨l, hl, by rw [hstake.retire hconn]; exact he⟩
      exact .inr (hall t ht b hb l hstake.2.2.2.2.1 hstake.2.2.2.2.2
        (hops _ (by simp [LeaseAction.requests])) (hops _ (by simp [LeaseAction.requests])))
  · intro hcond t ht b hb l hlease hdraining hwrite hterm
    obtain ⟨hstake, hconn⟩ := atStake_of_run ht hb hlease hdraining hwrite hterm
    refine (hcond l b hstake).resolve_left fun hbusy => ?_
    exact (activeConn_ne_zero hb).mpr hbusy hconn

/-- A drained slot of a group of two, and a table that is not there. -/
def unreadTable : Sources where
  net := ⟨167772160, 20⟩
  weights := [⟨167772180, .draining⟩]
  leases := [⟨0, "i-a", 2000⟩]
  asg := (some ⟨"pool", 2, 1, 4⟩, [⟨"i-a", "InService", "Healthy"⟩])
  table := .error "No such file or directory (os error 2)"
  distinct_ips := by decide
  ips_lt := by decide
  distinct_slots := by decide
  slots_lt := by decide

/-- Without any evidence the owner of a draining backend is asked to terminate. -/
theorem terminates_without_evidence :
    ¬ ∀ src clock decrement, TerminatesOnEvidence src clock decrement := by
  intro h
  obtain ⟨text, htable, -⟩ := h unreadTable ⟨fun _ => 1000, fun _ => 10 ^ 9⟩ true _
    (exec_answering okReply _) ⟨167772180, some 0, .draining, none, some ⟨0, "i-a", 2000⟩⟩
    (by decide) ⟨0, "i-a", 2000⟩ rfl rfl (by decide) (by decide)
  cases htable

end Aerosuite.Scale
