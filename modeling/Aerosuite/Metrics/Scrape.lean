import Aerosuite.Metrics.CloudWatch
import Aerosuite.Metrics.Store

/-! A pass over the backends that scrapes their metrics, puts them in the store and, on the master,
pushes them to CloudWatch.  What it logs is left out, with the comparison of sessions and IPVS
connections that it logs. -/

namespace Aerosuite.Metrics

open Prometheus Program Query Scale

inductive ScrapeOp (F : Type) where
  /-- The clock reading of `is_expired`. -/
  | now
  | scrapeOne (ip : Ipv4Addr) (port : ℕ)
  | setBackends (backends : List (BackendMetrics F))
  | utcNow
  | awsQuery (host service region : String) (params : Params)

/-- What an operation replies.  The error of a scrape is its text. -/
abbrev ScrapeOp.Reply {F : Type} : ScrapeOp F → Type
  | .now => ℕ
  | .scrapeOne .. =>
    Except String (List (RawSample F) × (List Char → Option (List Char)))
  | .setBackends _ => Unit
  | .utcNow => String
  | .awsQuery .. => Except (List String) (List Char)

section Source

variable {F : Type}

abbrev ScrapeProgram (F : Type) := Program (ScrapeOp F) ScrapeOp.Reply

def scrapeCall (op : ScrapeOp F) : ScrapeProgram F op.Reply := perform op

/-- The entry of a backend after its scrape. -/
def scrapedMetrics (slot : ℕ) :
    Except String (List (RawSample F) × (List Char → Option (List Char))) → BackendMetrics F
  | .ok (samples, docs) => ⟨slot, samples, docs, none⟩
  | .error e => ⟨slot, [], fun _ => none, some e⟩

/-- What the loop of `scrape_and_push` does for a backend. -/
def scrapeBackend (scrape_port : ℕ) (b : BackendStatus) :
    ScrapeProgram F (Option (BackendMetrics F)) :=
  match b.lease with
  | none => pure none
  | some l => do
    let now ← scrapeCall .now
    if l.isExpired now then pure none
    else
      match b.slot with
      | none => pure none
      | some slot => do
        let reply ← scrapeCall (.scrapeOne b.ip scrape_port)
        pure (some (scrapedMetrics slot reply))

variable [Add F] [Zero F] (fixed : F → String)

def push (region nspace : String) (backends : List (BackendMetrics F)) :
    ScrapeProgram F (Except (List String) Unit) := do
  let active_backends := backends.filter fun b => b.error.isNone
  if active_backends = [] then pure (.ok ())
  else
    let timestamp ← scrapeCall .utcNow
    let params := pushParams fixed nspace timestamp active_backends
    let reply ← scrapeCall (.awsQuery s!"monitoring.{region}.amazonaws.com" "monitoring" region
      params)
    match reply with
    | .error chain => pure (.error chain)
    | .ok xml =>
      if Text.contains xml "PutMetricDataResponse".toList ∨ Text.contains xml "<RequestId>".toList
      then pure (.ok ())
      else pure (.error ["Unexpected CloudWatch PutMetricData response:\n" ++ String.ofList xml])

def scrapeAndPush (snapshot : SystemSnapshot) (scrape_port : ℕ) (region nspace : String)
    (is_master : Bool) : ScrapeProgram F Unit := do
  let results ← foldEach (fun results b => do
    let m ← scrapeBackend scrape_port b
    pure (results ++ m.toList)) [] snapshot.backends
  let results := results.insertionSort fun a b => a.slot ≤ b.slot
  scrapeCall (.setBackends results)
  if is_master then
    let _ ← push fixed region nspace results
    pure ()
  else pure ()

end Source

section Runs

variable {F : Type}

/-- What is done for a backend, and the entry that comes of it: its lease is read, and only when it
is in force and the backend has a slot, the metrics are scraped. -/
inductive Scraped (scrape_port : ℕ) (b : BackendStatus) :
    List (Event (ScrapeOp F) ScrapeOp.Reply) → Option (BackendMetrics F) → Prop
  | unleased (h : b.lease = none) : Scraped scrape_port b [] none
  | expired {l : SlotLease} {now : ℕ} (hlease : b.lease = some l) (h : l.isExpired now = true) :
    Scraped scrape_port b [⟨.now, now⟩] none
  | stray {l : SlotLease} {now : ℕ} (hlease : b.lease = some l) (h : l.isExpired now = false)
    (hslot : b.slot = none) : Scraped scrape_port b [⟨.now, now⟩] none
  | scraped {l : SlotLease} {now slot : ℕ}
    {reply : Except String (List (RawSample F) × (List Char → Option (List Char)))}
    (hlease : b.lease = some l) (h : l.isExpired now = false) (hslot : b.slot = some slot) :
    Scraped scrape_port b [⟨.now, now⟩, ⟨.scrapeOne b.ip scrape_port, reply⟩]
      (some (scrapedMetrics slot reply))

theorem exec_scrapeBackend {scrape_port : ℕ} {b : BackendStatus}
    {t : List (Event (ScrapeOp F) ScrapeOp.Reply)} {m : Option (BackendMetrics F)}
    (h : Exec (scrapeBackend scrape_port b) t m) : Scraped scrape_port b t m := by
  simp only [scrapeBackend, scrapeCall, perform_bind] at h
  cases hlease : b.lease with
  | none =>
    rw [hlease] at h
    obtain ⟨rfl, rfl⟩ := exec_ret.mp h
    exact .unleased hlease
  | some l =>
    rw [hlease] at h
    obtain ⟨now, t, rfl, hread⟩ := exec_call.mp h
    by_cases hexpired : l.isExpired now = true
    · rw [if_pos hexpired] at hread
      obtain ⟨rfl, rfl⟩ := exec_ret.mp hread
      exact .expired hlease hexpired
    · rw [if_neg hexpired] at hread
      have hforce : l.isExpired now = false := by simpa using hexpired
      cases hslot : b.slot with
      | none =>
        rw [hslot] at hread
        obtain ⟨rfl, rfl⟩ := exec_ret.mp hread
        exact .stray hlease hforce hslot
      | some slot =>
        rw [hslot] at hread
        obtain ⟨reply, t, rfl, hscraped⟩ := exec_call.mp hread
        obtain ⟨rfl, rfl⟩ := exec_ret.mp hscraped
        exact .scraped hlease hforce hslot

/-- An entry has the slot of its backend. -/
theorem Scraped.slot {scrape_port : ℕ} {b : BackendStatus}
    {t : List (Event (ScrapeOp F) ScrapeOp.Reply)} {m : BackendMetrics F}
    (h : Scraped scrape_port b t (some m)) : b.slot = some m.slot := by
  cases h with
  | scraped hlease h hslot =>
    rename_i reply
    cases reply <;> exact hslot

/-- The entries have the slots of backends, in their order. -/
theorem slots_sublist {scrape_port : ℕ} {backends : List BackendStatus}
    {scrapes : List (List (Event (ScrapeOp F) ScrapeOp.Reply) × Option (BackendMetrics F))}
    (h : List.Forall₂ (fun b s => Scraped scrape_port b s.1 s.2) backends scrapes) :
    ((scrapes.filterMap Prod.snd).map BackendMetrics.slot).Sublist
      (backends.filterMap BackendStatus.slot) := by
  induction h with
  | nil => exact List.Sublist.refl _
  | @cons b s backends scrapes hs _ ih =>
    obtain ⟨t, m⟩ := s
    cases m with
    | none =>
      cases hslot : b.slot with
      | none => simpa [hslot] using ih
      | some slot => simpa [hslot] using ih.cons slot
    | some m => simpa [hs.slot] using ih.cons_cons m.slot

theorem Located.slots_nodup {net : SlotNetwork} {snapshot : SystemSnapshot}
    (h : Located net snapshot) : (snapshot.backends.filterMap BackendStatus.slot).Nodup := by
  have hslots : snapshot.backends.filterMap BackendStatus.slot =
      (snapshot.backends.map BackendStatus.ip).filterMap net.slotForIp := by
    rw [List.filterMap_map]
    exact List.filterMap_congr h.slot
  rw [hslots]
  exact h.distinct.filterMap fun ip ip' slot hip hip' => slotForIp_inj hip hip'

/-- The entries of a pass, sorted by slot. -/
def resultsOf (scrapes : List (List (Event (ScrapeOp F) ScrapeOp.Reply) ×
    Option (BackendMetrics F))) : List (BackendMetrics F) :=
  (scrapes.filterMap Prod.snd).insertionSort fun a b => a.slot ≤ b.slot

/-- The entries of a pass have different slots. -/
theorem nodup_resultsOf {net : SlotNetwork} {snapshot : SystemSnapshot}
    (h : Located net snapshot) {scrape_port : ℕ}
    {scrapes : List (List (Event (ScrapeOp F) ScrapeOp.Reply) × Option (BackendMetrics F))}
    (hscraped : List.Forall₂ (fun b s => Scraped scrape_port b s.1 s.2) snapshot.backends scrapes) :
    ((resultsOf scrapes).map BackendMetrics.slot).Nodup := by
  have hperm := (List.perm_insertionSort (fun a b : BackendMetrics F => a.slot ≤ b.slot)
    (scrapes.filterMap Prod.snd)).map BackendMetrics.slot
  exact hperm.nodup_iff.mpr (h.slots_nodup.sublist (slots_sublist hscraped))

variable [Add F] [Zero F] {fixed : F → String}

/-- A push is one request with the data points of the backends whose scrape succeeded, and none
when there are no such backends. -/
theorem exec_push {region nspace : String} {backends : List (BackendMetrics F)}
    {t : List (Event (ScrapeOp F) ScrapeOp.Reply)} {r : Except (List String) Unit}
    (h : Exec (push fixed region nspace backends) t r) :
    let active_backends := backends.filter fun b => b.error.isNone
    if active_backends = [] then t = []
    else ∃ timestamp reply, t = [⟨.utcNow, timestamp⟩,
      ⟨.awsQuery s!"monitoring.{region}.amazonaws.com" "monitoring" region
        (pushParams fixed nspace timestamp active_backends), reply⟩] := by
  simp only [push, scrapeCall, perform_bind] at h ⊢
  split
  next hnone =>
    rw [if_pos hnone] at h
    exact (exec_ret.mp h).1
  next hsome =>
    rw [if_neg hsome] at h
    obtain ⟨timestamp, t, rfl, hquery⟩ := exec_call.mp h
    obtain ⟨reply, t, rfl, hreply⟩ := exec_call.mp hquery
    have ht : t = [] := by
      cases reply with
      | error chain => exact (exec_ret.mp hreply).1
      | ok xml =>
        simp only at hreply
        split at hreply <;> exact (exec_ret.mp hreply).1
    exact ⟨timestamp, reply, by rw [ht]⟩

/-- What a pass does, given what it does for each backend and its push: the store gets the entries,
and only the master pushes, in one request if any scrape succeeded.  CloudWatch reads in it exactly
the data points of the backends whose scrape succeeded, in order, and no two of them belong to one
time series exactly when the uploads of each backend have different statuses. -/
structure ScrapePass (fixed : F → String) (snapshot : SystemSnapshot) (scrape_port : ℕ)
    (region nspace : String) (is_master : Bool) (t : List (Event (ScrapeOp F) ScrapeOp.Reply))
    (scrapes : List (List (Event (ScrapeOp F) ScrapeOp.Reply) × Option (BackendMetrics F)))
    (pushed : List (Event (ScrapeOp F) ScrapeOp.Reply)) : Prop where
  scraped : List.Forall₂ (fun b s => Scraped scrape_port b s.1 s.2) snapshot.backends scrapes
  trace : t = (scrapes.map Prod.fst).flatten ++ ⟨.setBackends (resultsOf scrapes), ()⟩ :: pushed
  push :
    let active_backends := (resultsOf scrapes).filter fun b => b.error.isNone
    if is_master = false ∨ active_backends = [] then pushed = []
    else ∃ timestamp params reply, pushed = [⟨.utcNow, timestamp⟩,
        ⟨.awsQuery s!"monitoring.{region}.amazonaws.com" "monitoring" region params, reply⟩] ∧
      params.lookup "Namespace" = some nspace ∧
      readData params = (active_backends.flatMap points).map (datum fixed timestamp) ∧
      ∀ net, Located net snapshot → (((readData params).map Datum.series).Nodup ↔
        ∀ b ∈ active_backends, ((storTransfers b).map statusLabel).Nodup)

/-- Every run of `scrape_and_push` is such a pass. -/
theorem scrape_and_push_run {snapshot : SystemSnapshot} {scrape_port : ℕ} {region nspace : String}
    {is_master : Bool} {t : List (Event (ScrapeOp F) ScrapeOp.Reply)}
    (h : Exec (scrapeAndPush fixed snapshot scrape_port region nspace is_master) t ()) :
    ∃ scrapes pushed,
      ScrapePass fixed snapshot scrape_port region nspace is_master t scrapes pushed := by
  simp only [scrapeAndPush, scrapeCall, perform_bind] at h
  obtain ⟨t₁, results, t₂, rfl, hscrapes, hrest⟩ := exec_bind.mp h
  obtain ⟨scrapes, hruns, rfl, rfl⟩ := exec_foldEach_collect hscrapes
  obtain ⟨⟨⟩, pushed, rfl, hpush⟩ := exec_call.mp hrest
  have hscraped : List.Forall₂ (fun b s => Scraped scrape_port b s.1 s.2) snapshot.backends
      scrapes := hruns.imp fun _ _ => exec_scrapeBackend
  refine ⟨scrapes, pushed, hscraped, rfl, ?_⟩
  change Exec (if is_master then _ else _) pushed () at hpush
  cases is_master with
  | false =>
    rw [if_pos (.inl rfl)]
    exact (exec_ret.mp hpush).1
  | true =>
    obtain ⟨r, hpush, -⟩ := exec_bind_ret.mp hpush
    change Exec (Metrics.push fixed region nspace (resultsOf scrapes)) pushed r at hpush
    have hrequest := exec_push hpush
    simp only at hrequest ⊢
    split at hrequest
    next hnone => rwa [if_pos (.inr hnone)]
    next hsome =>
      obtain ⟨timestamp, reply, rfl⟩ := hrequest
      have hread := readData_pushParams fixed nspace timestamp
        ((resultsOf scrapes).filter fun b => b.error.isNone)
      rw [if_neg (by simpa using hsome)]
      refine ⟨timestamp, _, reply, rfl, ?_, hread, fun net hlocated => ?_⟩
      · rw [pushParams_eq]
        rfl
      · have hdistinct := (nodup_resultsOf hlocated hscraped).sublist
          ((List.filter_sublist (p := fun b => b.error.isNone)).map BackendMetrics.slot)
        rw [hread, List.map_map]
        exact series_nodup_iff.trans (and_iff_right hdistinct)

/-- A backend that answers, one that does not, and one whose lease has expired. -/
def threeBackends : SystemSnapshot :=
  ⟨[⟨10, some 0, .active, none, some ⟨0, "i-0", 9000⟩⟩, ⟨11, some 1, .active, none,
      some ⟨1, "i-1", 9000⟩⟩, ⟨12, some 2, .active, none, some ⟨2, "i-2", 500⟩⟩], [], [], none, []⟩

/-- The clock reads 1000, only the address 10 answers the scrape, and CloudWatch takes the push. -/
def oneAnswers : (op : ScrapeOp ℕ) → op.Reply
  | .now => (1000 : ℕ)
  | .scrapeOne ip _ =>
    if ip = 10 then .ok ([⟨"ftp_sessions_total".toList, 4, .gauge, []⟩], fun _ => none)
    else .error "connection refused"
  | .setBackends _ => ()
  | .utcNow => "2025-01-01T00:00:00Z"
  | .awsQuery .. => .ok "<PutMetricDataResponse/>".toList

theorem scrape_and_push_run_one_answers : ∃ scrapes pushed,
    ScrapePass (toString : ℕ → String) threeBackends 9090 "eu-west-2" "Aeroftp" true
      (answering oneAnswers
        (scrapeAndPush toString threeBackends 9090 "eu-west-2" "Aeroftp" true)).1 scrapes pushed :=
  scrape_and_push_run (exec_answering _ _)

end Runs

end Aerosuite.Metrics
