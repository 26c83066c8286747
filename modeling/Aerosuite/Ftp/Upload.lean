import Mathlib.Algebra.Ring.Nat
import Aerosuite.Library.Program

/-! Uploads: `AeroStorage::put` copies what the client sends to a writer of the object store and
shuts the writer down.  The writer publishes what it has accepted when the shutdown succeeds, and
`put` shuts it down after a copy that failed as well. -/

namespace Aerosuite.Ftp

open Program

/-- What a read puts into the buffer of `copy_read_write_loop`.  At the end of the stream it is
empty. -/
abbrev Chunk := { bytes : List UInt8 // bytes.length ≤ 8 * 1024 }

/-- The operations of `put`: on the object store, and on the stream of the client. -/
inductive StorageOp where
  | openWriter (s3_path : String) (user_metadata : List (String × String))
  | read
  | write (buf : List UInt8)
  | shutdown

/-- What an operation replies.  A write accepts some of the bytes that it is offered. -/
abbrev StorageOp.Reply : StorageOp → Type
  | .openWriter .. | .shutdown => Except String Unit
  | .read => Except String Chunk
  | .write buf => Except String (Fin (buf.length + 1))

abbrev Storage := Program StorageOp StorageOp.Reply

/-- The program that performs one operation. -/
abbrev storageOp (e : StorageOp) : Storage e.Reply := Program.perform e

abbrev StorageEvent := Event StorageOp StorageOp.Reply

/-- `write_all`. -/
def writeAll (buf : List UInt8) : Storage (Except String Unit) :=
  if _h : buf = [] then pure (.ok ())
  else
    .call (.write buf) fun
      | .ok n =>
        if _hn : n.val = 0 then pure (.error "failed to write whole buffer")
        else writeAll (buf.drop n)
      | .error e => pure (.error e)
termination_by buf.length
decreasing_by
  have := List.length_pos_of_ne_nil _h
  rw [List.length_drop]
  omega

/-- `copy_read_write_loop`, for a number of rounds.  It returns nothing when it has not ended by
then. -/
def copyReadWriteLoop : ℕ → ℕ → Storage (Option (Except String ℕ))
  | 0, _ => pure none
  | rounds + 1, copied => do
    match ← storageOp .read with
    | .error e => pure (some (.error e))
    | .ok chunk =>
      let n := chunk.val.length
      if n = 0 then pure (some (.ok copied))
      else
        match ← writeAll chunk.val with
        | .error e => pure (some (.error e))
        | .ok () => copyReadWriteLoop rounds ((copied + n) % 2 ^ 64)

/-- What `put` makes of the results of the copy and of the shutdown.  All errors are of the kind
`LocalError`. -/
def putResult : Except String ℕ → Except String Unit → Except String ℕ
  | .ok bytes, .ok () => .ok bytes
  | .error e, .ok () => .error s!"copy failed: {e}"
  | .ok _, .error e => .error s!"shutdown failed: {e}"
  | .error ce, .error se => .error s!"copy failed: {ce}; shutdown failed: {se}"

/-- `AeroStorage::put`, for a number of rounds of the copy loop. -/
def put (rounds : ℕ) (system_meta : List (String × String)) (path : String) :
    Storage (Option (Except String ℕ)) := do
  let s3_path := path
  match ← storageOp (.openWriter s3_path system_meta) with
  | .error e => pure (some (.error e))
  | .ok () =>
    match ← copyReadWriteLoop rounds 0 with
    | none => pure none
    | some copy_result =>
      let shutdown_result ← storageOp .shutdown
      pure (some (putResult copy_result shutdown_result))

/-- The object at the path, newest version first, and what the writer has accepted. -/
structure ObjectStore where
  versions : List (List UInt8)
  buffered : List UInt8

/-- The writer publishes what it has accepted when it is shut down with success. -/
def ObjectStore.after (s : ObjectStore) : StorageEvent → ObjectStore
  | ⟨.write buf, .ok n⟩ => { s with buffered := s.buffered ++ buf.take n }
  | ⟨.shutdown, .ok ()⟩ => { s with versions := s.buffered :: s.versions }
  | _ => s

/-- The versions of the object after the operations of a trace. -/
def versionsAfter (versions : List (List UInt8)) (t : List StorageEvent) : List (List UInt8) :=
  (t.foldl ObjectStore.after ⟨versions, []⟩).versions

/-- The results of the reads of a trace. -/
def readResults (t : List StorageEvent) : List (Except String Chunk) :=
  t.filterMap fun ev =>
    match ev with
    | ⟨.read, r⟩ => some r
    | _ => none

/-- The bytes are the whole stream of the client, which was read to its end. -/
def WholeStream (t : List StorageEvent) (bytes : List UInt8) : Prop :=
  ∃ (chunks : List Chunk) (eof : Chunk), readResults t = chunks.map .ok ++ [.ok eof] ∧
    (∀ c ∈ chunks, c.val ≠ []) ∧ eof.val = [] ∧ bytes = chunks.flatMap Subtype.val

/-- `put` succeeds only when the object is the whole stream, and its failure leaves the object as it
was. -/
structure AllOrNothing (t : List StorageEvent) (versions : List (List UInt8))
    (result : Except String ℕ) : Prop where
  ok : ∀ n, result = .ok n →
    ∃ bytes, WholeStream t bytes ∧ versionsAfter versions t = bytes :: versions ∧ bytes.length = n
  error : ∀ e, result = .error e → versionsAfter versions t = versions

/-- A read or a write failed.  A write that accepts nothing has failed, too. -/
def Fails : StorageEvent → Prop
  | ⟨.read, .error _⟩ | ⟨.write _, .error _⟩ => True
  | ⟨.write _, .ok n⟩ => n.val = 0
  | _ => False

/-- The bytes that the client has sent. -/
def received (t : List StorageEvent) : List UInt8 :=
  t.flatMap fun ev =>
    match ev with
    | ⟨.read, .ok chunk⟩ => chunk.val
    | _ => []

/-- The writer was shut down with success. -/
def Commits (t : List StorageEvent) : Prop := ⟨.shutdown, .ok ()⟩ ∈ t

section Copy

variable {t t' : List StorageEvent} {versions : List (List UInt8)}

/-- What the writer accepted of an operation. -/
def accepted : StorageEvent → List UInt8
  | ⟨.write buf, .ok n⟩ => buf.take n
  | _ => []

/-- An operation of the copy loop. -/
def StorageOp.copies : StorageOp → Bool
  | .read | .write _ => true
  | .openWriter .. | .shutdown => false

theorem after_of_copies {s : ObjectStore} {ev : StorageEvent} (h : ev.op.copies = true) :
    s.after ev = { s with buffered := s.buffered ++ accepted ev } := by
  obtain ⟨op, reply⟩ := ev
  cases op with
  | openWriter s3_path user_metadata => cases h
  | shutdown => cases h
  | read => simp [ObjectStore.after, accepted]
  | write buf => cases reply <;> simp [ObjectStore.after, accepted]

theorem foldl_after_of_copies {s : ObjectStore} (h : ∀ ev ∈ t, ev.op.copies = true) :
    t.foldl ObjectStore.after s = { s with buffered := s.buffered ++ t.flatMap accepted } := by
  induction t generalizing s with
  | nil => simp
  | cons ev t ih =>
    obtain ⟨hev, ht⟩ := List.forall_mem_cons.mp h
    rw [List.foldl_cons, after_of_copies hev, ih ht]
    simp

theorem writeAll_nil : writeAll [] = .ret (.ok ()) := by
  rw [writeAll, dif_pos rfl]
  rfl

theorem writeAll_of_ne_nil {buf : List UInt8} (h : buf ≠ []) : writeAll buf =
    .call (.write buf) fun
      | .ok n =>
        if n.val = 0 then .ret (.error "failed to write whole buffer") else writeAll (buf.drop n)
      | .error e => .ret (.error e) := by
  rw [writeAll, dif_neg h]
  rfl

theorem writeAll_always (buf : List UInt8) :
    (writeAll buf).Always fun e => ∃ rest, e = .write rest := by
  induction buf using writeAll.induct with
  | case1 =>
    rw [writeAll_nil]
    trivial
  | case2 buf h ih =>
    rw [writeAll_of_ne_nil h, always_call]
    refine ⟨⟨buf, rfl⟩, fun r => ?_⟩
    cases r with
    | error e => trivial
    | ok n =>
      dsimp only
      split
      · trivial
      · next hn => exact ih n hn

/-- `write_all` succeeds when the writer has accepted the whole buffer, and else a write failed. -/
theorem exec_writeAll {buf : List UInt8} {r : Except String Unit} (h : Exec (writeAll buf) t r) :
    r = .ok () ∧ t.flatMap accepted = buf ∧ (∀ ev ∈ t, ¬Fails ev) ∨
      (∃ e, r = .error e) ∧ ∃ ev ∈ t, Fails ev := by
  induction buf using writeAll.induct generalizing t with
  | case1 =>
    rw [writeAll_nil] at h
    obtain ⟨rfl, rfl⟩ := exec_ret.mp h
    exact .inl ⟨rfl, rfl, by simp⟩
  | case2 buf hne ih =>
    rw [writeAll_of_ne_nil hne] at h
    obtain ⟨reply, t', rfl, h'⟩ := exec_call.mp h
    cases reply with
    | error e =>
      obtain ⟨rfl, rfl⟩ := exec_ret.mp h'
      exact .inr ⟨⟨e, rfl⟩, _, List.mem_cons_self, trivial⟩
    | ok n =>
      dsimp only at h'
      split at h'
      · next hn =>
        obtain ⟨rfl, rfl⟩ := exec_ret.mp h'
        exact .inr ⟨⟨_, rfl⟩, _, List.mem_cons_self, hn⟩
      · next hn =>
        rcases ih n hn h' with ⟨rfl, hbytes, hnone⟩ | ⟨herror, ev, hev, hfails⟩
        · refine .inl ⟨rfl, ?_, List.forall_mem_cons.mpr ⟨hn, hnone⟩⟩
          rw [List.flatMap_cons, hbytes]
          exact List.take_append_drop n.val buf
        · exact .inr ⟨herror, ev, List.mem_cons_of_mem _ hev, hfails⟩

theorem received_of_writes (h : ∀ ev ∈ t, ∃ buf, ev.op = .write buf) :
    readResults t = [] ∧ received t = [] := by
  constructor
  · refine List.filterMap_eq_nil_iff.mpr fun ev hev => ?_
    obtain ⟨buf, hop⟩ := h ev hev
    obtain ⟨op, reply⟩ := ev
    subst hop
    rfl
  · refine List.flatMap_eq_nil_iff.mpr fun ev hev => ?_
    obtain ⟨buf, hop⟩ := h ev hev
    obtain ⟨op, reply⟩ := ev
    subst hop
    rfl

theorem received_round {chunk : Chunk} {t₁ t₂ : List StorageEvent}
    (hwrites : ∀ ev ∈ t₁, ∃ buf, ev.op = .write buf) :
    received (⟨.read, .ok chunk⟩ :: (t₁ ++ t₂)) = chunk.val ++ received t₂ := by
  have hsent := (received_of_writes hwrites).2
  simp only [received, List.flatMap_cons, List.flatMap_append] at hsent ⊢
  rw [hsent, List.nil_append]

/-- What a copy did that returns a count. -/
structure Copied (t : List StorageEvent) (copied n : ℕ) : Prop where
  whole : WholeStream t (received t)
  accepted : t.flatMap accepted = received t
  intact : ∀ ev ∈ t, ¬Fails ev
  count : n = (copied + (received t).length) % 2 ^ 64

theorem Copied.eof {chunk : Chunk} {copied : ℕ} (h : chunk.val = []) (hcopied : copied < 2 ^ 64) :
    Copied [⟨.read, .ok chunk⟩] copied copied where
  whole := ⟨[], chunk, rfl, by simp, h, by simp [received, h]⟩
  accepted := by simp [Ftp.accepted, received, h]
  intact := List.forall_mem_singleton.mpr nofun
  count := by
    have hnone : received [⟨.read, .ok chunk⟩] = [] := by simp [received, h]
    rw [hnone, List.length_nil, Nat.add_zero, Nat.mod_eq_of_lt hcopied]

/-- A round of the copy loop reads a chunk and passes it on. -/
theorem Copied.round {chunk : Chunk} {t₁ t₂ : List StorageEvent} {copied n : ℕ}
    (hne : chunk.val ≠ []) (hwrites : ∀ ev ∈ t₁, ∃ buf, ev.op = .write buf)
    (hbytes : t₁.flatMap Ftp.accepted = chunk.val) (hnone : ∀ ev ∈ t₁, ¬Fails ev)
    (h : Copied t₂ ((copied + chunk.val.length) % 2 ^ 64) n) :
    Copied (⟨.read, .ok chunk⟩ :: (t₁ ++ t₂)) copied n := by
  have hreads := (received_of_writes hwrites).1
  have hreceived : received (⟨.read, .ok chunk⟩ :: (t₁ ++ t₂)) = chunk.val ++ received t₂ :=
    received_round hwrites
  obtain ⟨chunks, eof, hresults, hchunks, heof, hwhole⟩ := h.whole
  constructor
  · refine ⟨chunk :: chunks, eof, ?_, List.forall_mem_cons.mpr ⟨hne, hchunks⟩, heof, ?_⟩
    · simp only [readResults, List.filterMap_cons, List.filterMap_append] at hreads hresults ⊢
      rw [hreads, hresults]
      rfl
    · rw [hreceived, hwhole, List.flatMap_cons]
  · rw [hreceived, List.flatMap_cons, List.flatMap_append, hbytes, h.accepted]
    rfl
  · refine List.forall_mem_cons.mpr ⟨nofun, fun ev hev => ?_⟩
    exact (List.mem_append.mp hev).elim (hnone ev) (h.intact ev)
  · rw [h.count, hreceived, List.length_append]
    omega

/-- A round ends the copy when the read fails, at the end of the stream, and when a write fails. -/
theorem exec_copyReadWriteLoop_succ {rounds copied : ℕ} {r : Option (Except String ℕ)}
    (h : Exec (copyReadWriteLoop (rounds + 1) copied) t r) :
    (∃ e, t = [⟨.read, .error e⟩] ∧ r = some (.error e)) ∨
    (∃ chunk : Chunk, chunk.val = [] ∧ t = [⟨.read, .ok chunk⟩] ∧ r = some (.ok copied)) ∨
    ∃ (chunk : Chunk) (t₁ t₂ : List StorageEvent), chunk.val ≠ [] ∧
      t = ⟨.read, .ok chunk⟩ :: (t₁ ++ t₂) ∧
      ((∃ e, Exec (writeAll chunk.val) t₁ (.error e) ∧ r = some (.error e)) ∨
        Exec (writeAll chunk.val) t₁ (.ok ()) ∧
          Exec (copyReadWriteLoop rounds ((copied + chunk.val.length) % 2 ^ 64)) t₂ r) := by
  obtain ⟨reply, t', rfl, h'⟩ := exec_call.mp h
  cases reply with
  | error e =>
    obtain ⟨rfl, rfl⟩ := exec_ret.mp h'
    exact .inl ⟨e, rfl, rfl⟩
  | ok chunk =>
    change Exec (if chunk.val.length = 0 then pure (some (.ok copied))
      else writeAll chunk.val >>= _) t' r at h'
    by_cases hn : chunk.val.length = 0
    · rw [if_pos hn] at h'
      obtain ⟨rfl, rfl⟩ := exec_ret.mp h'
      exact .inr (.inl ⟨chunk, List.length_eq_zero_iff.mp hn, rfl, rfl⟩)
    · rw [if_neg hn] at h'
      obtain ⟨t₁, written, t₂, rfl, hwrite, hnext⟩ := exec_bind.mp h'
      refine .inr (.inr ⟨chunk, t₁, t₂, mt List.length_eq_zero_iff.mpr hn, rfl, ?_⟩)
      cases written with
      | error e => exact .inl ⟨e, hwrite, (exec_ret.mp hnext).2⟩
      | ok _ => exact .inr ⟨hwrite, hnext⟩

/-- A copy succeeds when it has passed on the whole stream, and else a read or a write failed. -/
theorem exec_copyReadWriteLoop {rounds copied : ℕ} {r : Except String ℕ}
    (h : Exec (copyReadWriteLoop rounds copied) t (some r)) (hcopied : copied < 2 ^ 64) :
    (∃ n, r = .ok n ∧ Copied t copied n) ∨ (∃ e, r = .error e) ∧ ∃ ev ∈ t, Fails ev := by
  induction rounds generalizing copied t with
  | zero => cases (exec_ret.mp h).2
  | succ rounds ih =>
    rcases exec_copyReadWriteLoop_succ h with
      ⟨e, rfl, heq⟩ | ⟨chunk, hnil, rfl, heq⟩ | ⟨chunk, t₁, t₂, hne, rfl, hround⟩
    · obtain rfl := Option.some.inj heq
      exact .inr ⟨⟨e, rfl⟩, _, List.mem_cons_self, trivial⟩
    · obtain rfl := Option.some.inj heq
      exact .inl ⟨copied, rfl, .eof hnil hcopied⟩
    · have hlift : (∃ ev ∈ t₁, Fails ev) ∨ (∃ ev ∈ t₂, Fails ev) →
          ∃ ev ∈ (⟨.read, .ok chunk⟩ :: (t₁ ++ t₂) : List StorageEvent), Fails ev := by
        rintro (⟨ev, hev, hfails⟩ | ⟨ev, hev, hfails⟩)
        · exact ⟨ev, List.mem_cons_of_mem _ (List.mem_append_left _ hev), hfails⟩
        · exact ⟨ev, List.mem_cons_of_mem _ (List.mem_append_right _ hev), hfails⟩
      rcases hround with ⟨e, hwrite, heq⟩ | ⟨hwrite, hnext⟩
      · obtain rfl := Option.some.inj heq
        obtain ⟨hok, -⟩ | ⟨-, hfailed⟩ := exec_writeAll hwrite
        · cases hok
        · exact .inr ⟨⟨e, rfl⟩, hlift (.inl hfailed)⟩
      · obtain ⟨-, hbytes, hnone⟩ | ⟨⟨e, he⟩, -⟩ := exec_writeAll hwrite
        · have hwrites := (writeAll_always chunk.val).exec hwrite
          rcases ih hnext (Nat.mod_lt _ (by decide)) with ⟨n, rfl, hcopy⟩ | ⟨herror, hfailed⟩
          · exact .inl ⟨n, rfl, .round hne hwrites hbytes hnone hcopy⟩
          · exact .inr ⟨herror, hlift (.inr hfailed)⟩
        · cases he

/-- A copy that has not ended has received a byte in each round. -/
theorem rounds_le_received {rounds copied : ℕ}
    (h : Exec (copyReadWriteLoop rounds copied) t none) : rounds ≤ (received t).length := by
  induction rounds generalizing copied t with
  | zero => exact Nat.zero_le _
  | succ rounds ih =>
    rcases exec_copyReadWriteLoop_succ h with
      ⟨e, -, heq⟩ | ⟨chunk, -, -, heq⟩ | ⟨chunk, t₁, t₂, hne, rfl, ⟨e, -, heq⟩ | ⟨hwrite, hnext⟩⟩
    · cases heq
    · cases heq
    · cases heq
    · have hle := ih hnext
      have hpos := List.length_pos_of_ne_nil hne
      rw [received_round ((writeAll_always chunk.val).exec hwrite), List.length_append]
      omega

theorem copyReadWriteLoop_always (rounds copied : ℕ) :
    (copyReadWriteLoop rounds copied).Always fun e => e.copies = true := by
  induction rounds generalizing copied with
  | zero => trivial
  | succ rounds ih =>
    refine always_call.mpr ⟨rfl, fun reply => ?_⟩
    cases reply with
    | error e => trivial
    | ok chunk =>
      refine always_ite.mpr ⟨fun _ => trivial, fun _ => Always.bind ?_ fun written => ?_⟩
      · exact (writeAll_always chunk.val).mono fun e ⟨rest, he⟩ => he ▸ rfl
      · cases written with
        | error e => trivial
        | ok _ => exact ih _

/-- The shutdown publishes what the copy passed on, when it succeeds. -/
theorem versionsAfter_put (versions : List (List UInt8)) (path : String)
    (system_meta : List (String × String)) (shutdown_result : Except String Unit)
    (h : ∀ ev ∈ t, ev.op.copies = true) :
    versionsAfter versions (⟨.openWriter path system_meta, .ok ()⟩ :: (t ++
        [⟨.shutdown, shutdown_result⟩])) =
      match shutdown_result with
      | .ok () => t.flatMap accepted :: versions
      | .error _ => versions := by
  have hopen : ObjectStore.after ⟨versions, []⟩ ⟨.openWriter path system_meta, .ok ()⟩ =
      ⟨versions, []⟩ := rfl
  rw [versionsAfter, List.foldl_cons, hopen, List.foldl_append, foldl_after_of_copies h]
  cases shutdown_result <;> rfl

/-- A call of `put` that returns could not open the writer, or it copied and shut the writer
down. -/
theorem exec_put {rounds : ℕ} {system_meta : List (String × String)} {path : String}
    {result : Except String ℕ} (h : Exec (put rounds system_meta path) t (some result)) :
    (∃ e, result = .error e ∧ t = [⟨.openWriter path system_meta, .error e⟩]) ∨
      ∃ t' copy_result shutdown_result,
        Exec (copyReadWriteLoop rounds 0) t' (some copy_result) ∧
        result = putResult copy_result shutdown_result ∧
        t = ⟨.openWriter path system_meta, .ok ()⟩ :: (t' ++ [⟨.shutdown, shutdown_result⟩]) := by
  obtain ⟨reply, t', rfl, h'⟩ := exec_call.mp h
  cases reply with
  | error e =>
    obtain ⟨rfl, heq⟩ := exec_ret.mp h'
    exact .inl ⟨e, Option.some.inj heq, rfl⟩
  | ok _ =>
    change Exec (copyReadWriteLoop rounds 0 >>= _) t' (some result) at h'
    obtain ⟨t₁, copied, t₂, rfl, hcopy, hnext⟩ := exec_bind.mp h'
    cases copied with
    | none => cases (exec_ret.mp hnext).2
    | some copy_result =>
      obtain ⟨shutdown_result, hshut, heq⟩ := exec_bind_ret.mp hnext
      obtain rfl := exec_perform.mp hshut
      exact .inr ⟨t₁, copy_result, shutdown_result, hcopy, Option.some.inj heq, rfl⟩

variable {path : String} {system_meta : List (String × String)} {opened shut : Except String Unit}

/-- The rounds are no limit: `put` returns when they are more than the bytes of the stream. -/
theorem rounds_le_of_unfinished {rounds : ℕ}
    (h : Exec (put rounds system_meta path) t none) : rounds ≤ (received t).length := by
  obtain ⟨reply, t', rfl, h'⟩ := exec_call.mp h
  cases reply with
  | error e => cases (exec_ret.mp h').2
  | ok _ =>
    change Exec (copyReadWriteLoop rounds 0 >>= _) t' none at h'
    obtain ⟨t₁, copied, t₂, rfl, hcopy, hnext⟩ := exec_bind.mp h'
    cases copied with
    | some copy_result =>
      obtain ⟨_, -, heq⟩ := exec_bind_ret.mp hnext
      cases heq
    | none =>
      obtain ⟨rfl, -⟩ := exec_ret.mp hnext
      rw [List.append_nil]
      show rounds ≤ (received t₁).length
      exact rounds_le_received hcopy

theorem commits_put (h : ∀ ev ∈ t, ev.op.copies = true) :
    Commits (⟨.openWriter path system_meta, opened⟩ :: (t ++ [⟨.shutdown, shut⟩])) ↔
      shut = .ok () := by
  constructor
  · intro hcommits
    rcases List.mem_cons.mp hcommits with hopen | hrest
    · cases hopen
    rcases List.mem_append.mp hrest with hcopy | hlast
    · cases h _ hcopy
    · cases List.mem_singleton.mp hlast
      rfl
  · rintro rfl
    exact List.mem_cons_of_mem _ (List.mem_append_right _ (List.mem_singleton_self _))

theorem forall_not_fails_put :
    (∀ ev ∈ (⟨.openWriter path system_meta, opened⟩ :: (t ++ [⟨.shutdown, shut⟩]) :
      List StorageEvent), ¬Fails ev) ↔ ∀ ev ∈ t, ¬Fails ev := by
  have hopen : ¬Fails ⟨.openWriter path system_meta, opened⟩ := id
  have hshut : ¬Fails ⟨.shutdown, shut⟩ := id
  rw [List.forall_mem_cons, List.forall_mem_append, List.forall_mem_singleton]
  exact ⟨fun h => h.2.1, fun h => ⟨hopen, h, hshut⟩⟩

theorem received_put :
    received (⟨.openWriter path system_meta, opened⟩ :: (t ++ [⟨.shutdown, shut⟩])) =
      received t := by
  simp [received]

theorem wholeStream_put {bytes : List UInt8} :
    WholeStream (⟨.openWriter path system_meta, opened⟩ :: (t ++ [⟨.shutdown, shut⟩])) bytes ↔
      WholeStream t bytes := by
  simp [WholeStream, readResults]

/-- A call that has published the whole stream is right when its count is. -/
theorem allOrNothing_ok_iff {bytes : List UInt8} (hwhole : WholeStream t bytes)
    (hversions : versionsAfter versions t = bytes :: versions) :
    AllOrNothing t versions (.ok (bytes.length % 2 ^ 64)) ↔ bytes.length < 2 ^ 64 := by
  constructor
  · intro hall
    obtain ⟨bytes', _, hbytes, hlength⟩ := hall.ok _ rfl
    obtain ⟨rfl, _⟩ := List.cons.inj (hbytes.symm.trans hversions)
    omega
  · intro hlt
    refine ⟨fun n hn => ⟨bytes, hwhole, hversions, ?_⟩, nofun⟩
    rw [← Except.ok.inj hn, Nat.mod_eq_of_lt hlt]

theorem not_allOrNothing_of_published {bytes : List UInt8} {e : String}
    (hversions : versionsAfter versions t = bytes :: versions) :
    ¬AllOrNothing t versions (.error e) := by
  intro hall
  have hsame := hall.error e rfl
  rw [hversions] at hsame
  exact List.cons_ne_self _ _ hsame

end Copy

/-- Uploads are all or nothing exactly in the calls of `put` that commit only after a copy in which
nothing failed, of a stream whose length the counter can hold. -/
theorem upload_all_or_nothing_iff {rounds : ℕ} {system_meta : List (String × String)}
    {path : String} {t : List StorageEvent} {result : Except String ℕ}
    (versions : List (List UInt8)) (h : Exec (put rounds system_meta path) t (some result)) :
    AllOrNothing t versions result ↔
      (Commits t → (∀ ev ∈ t, ¬Fails ev) ∧ (received t).length < 2 ^ 64) := by
  rcases exec_put h with ⟨e, rfl, rfl⟩ | ⟨t', copy_result, shut, hcopy, rfl, rfl⟩
  · refine iff_of_true ⟨nofun, fun _ _ => rfl⟩ fun hcommits => ?_
    cases List.mem_singleton.mp hcommits
  have hcopies := (copyReadWriteLoop_always rounds 0).exec hcopy
  have hversions := versionsAfter_put versions path system_meta shut hcopies
  rw [commits_put hcopies, forall_not_fails_put, received_put]
  cases shut with
  | error e =>
    refine iff_of_true ⟨fun n hresult => ?_, fun _ _ => hversions⟩ nofun
    cases copy_result <;> cases hresult
  | ok _ =>
    rcases exec_copyReadWriteLoop hcopy (by decide) with
      ⟨n, rfl, hcopied⟩ | ⟨⟨e, rfl⟩, ev, hev, hfails⟩
    · obtain rfl : n = (received t').length % 2 ^ 64 := by simpa using hcopied.count
      rw [hcopied.accepted] at hversions
      refine (allOrNothing_ok_iff (wholeStream_put.mpr hcopied.whole) hversions).trans ?_
      exact ⟨fun hlt _ => ⟨hcopied.intact, hlt⟩, fun hlt => (hlt rfl).2⟩
    · -- The shutdown has published what a failed copy had passed on.
      refine iff_of_false (not_allOrNothing_of_published hversions) fun hintact => ?_
      exact (hintact rfl).1 ev hev hfails

/-- A chunk of three bytes. -/
def threeBytes : Chunk := ⟨[1, 2, 3], by decide⟩

def endOfStream : Chunk := ⟨[], by decide⟩

/-- An upload whose first chunk is written, with the results of the second read and of the
shutdown. -/
def smallUpload (last : Except String Chunk) (shut : Except String Unit) : List StorageEvent :=
  [⟨.openWriter "scan.dcm" [], .ok ()⟩, ⟨.read, .ok threeBytes⟩, ⟨.write [1, 2, 3], .ok 3⟩,
    ⟨.read, last⟩, ⟨.shutdown, shut⟩]

theorem exec_smallUpload {last : Except String Chunk} {copy_result : Except String ℕ}
    (shut : Except String Unit)
    (h : Exec (copyReadWriteLoop 1 3) [⟨.read, last⟩] (some copy_result)) :
    Exec (put 2 [] "scan.dcm") (smallUpload last shut) (some (putResult copy_result shut)) := by
  have hwrite : Exec (writeAll [1, 2, 3]) [⟨.write [1, 2, 3], .ok 3⟩] (.ok ()) := by
    rw [writeAll_of_ne_nil (by decide)]
    apply Exec.call
    change Exec (writeAll []) [] (.ok ())
    rw [writeAll_nil]
    exact .ret _
  have hcopy : Exec (copyReadWriteLoop 2 0)
      (⟨.read, .ok threeBytes⟩ :: ([⟨.write [1, 2, 3], .ok 3⟩] ++ [⟨.read, last⟩]))
      (some copy_result) := by
    apply Exec.call
    change Exec (writeAll [1, 2, 3] >>= _) _ (some copy_result)
    exact exec_bind.mpr ⟨_, _, _, rfl, hwrite, h⟩
  apply Exec.call
  change Exec (copyReadWriteLoop 2 0 >>= _) _ (some _)
  exact exec_bind.mpr ⟨_, _, [⟨.shutdown, shut⟩], rfl, hcopy, .call _ (.ret _)⟩

theorem upload_all_or_nothing_iff_intact : AllOrNothing (smallUpload (.ok endOfStream) (.ok ()))
    [[7]] (.ok 3) := by
  have hcopy : Exec (copyReadWriteLoop 1 3) [⟨.read, .ok endOfStream⟩] (some (.ok 3)) :=
    .call _ (.ret _)
  refine (upload_all_or_nothing_iff [[7]] (exec_smallUpload (.ok ()) hcopy)).mpr fun _ =>
    ⟨?_, by decide⟩
  simp [smallUpload, Fails]

/-- The connection is lost after the first chunk, and the chunk is published. -/
theorem lost_upload_published :
    ¬∀ (rounds : ℕ) (system_meta : List (String × String)) (path : String) (t : List StorageEvent)
      (result : Except String ℕ) (versions : List (List UInt8)),
      Exec (put rounds system_meta path) t (some result) → AllOrNothing t versions result := by
  intro h
  have hcopy : Exec (copyReadWriteLoop 1 3) [⟨.read, .error "connection reset"⟩]
      (some (.error "connection reset")) :=
    .call _ (.ret _)
  have hall := h _ _ _ _ _ [[7]] (exec_smallUpload (.ok ()) hcopy)
  have hpublished : versionsAfter [[7]] (smallUpload (.error "connection reset") (.ok ())) =
      [[1, 2, 3], [7]] := by decide
  cases hpublished.symm.trans (hall.error _ rfl)

end Aerosuite.Ftp
