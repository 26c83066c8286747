import Aerosuite.Scale.World

/-! What the main task of a node holds between its operations, as far as its own operations and
their replies show: the phase of its cycle, the draining weights that it has read but not yet used,
and the owners that its snapshot pairs with draining backends. -/

namespace Aerosuite.Scale

open Pool Program

/-- The phases of the main task: the startup before and after it lists the weight files, and in a
cycle the collection of the snapshot, the cleanup, and what follows the listing of the files to
persist. -/
inductive Phase where
  | starting
  | restoring
  | collecting
  | collected
  | persisting
  deriving DecidableEq

/-- The refresh loop runs. -/
def Phase.InLoop : Phase → Prop
  | .starting | .restoring => False
  | .collecting | .collected | .persisting => True

/-- The snapshot of the cycle is complete. -/
def Phase.AfterCollect : Phase → Prop
  | .collected | .persisting => True
  | .starting | .restoring | .collecting => False

instance Phase.decidableInLoop : DecidablePred Phase.InLoop
  | .starting | .restoring => isFalse id
  | .collecting | .collected | .persisting => isTrue trivial

instance Phase.decidableAfterCollect : DecidablePred Phase.AfterCollect
  | .starting | .restoring | .collecting => isFalse id
  | .collected | .persisting => isTrue trivial

/-- What the main task holds: `owner_cache`, the addresses whose draining weight it carries, the
owners of the leases of its snapshot, those that a draining backend has, and the address whose
weight it wrote last. -/
structure MainView where
  phase : Phase
  owner_cache : OwnerCache
  carried : List String
  leased : List String
  doomed : List (String × String)
  written : Option String

/-- The address of the slot of a lease, as a text. -/
def slotIp (net : SlotNetwork) (slot_str : String) : String :=
  String.ofList (net.ipForSlot (slotNumber slot_str)).display

namespace MainView

def start : MainView := ⟨.starting, fun _ => none, [], [], [], none⟩

/-- A cycle starts. -/
def newCycle (view : MainView) : MainView := ⟨.collecting, view.owner_cache, [], [], [], none⟩

/-- A directory of weight files is listed: once at the startup, to collect, and to persist. -/
def listed (view : MainView) : MainView :=
  match view.phase with
  | .starting => { view with phase := .restoring, carried := [] }
  | .collected => { view with phase := .persisting, carried := [] }
  | .restoring | .collecting | .persisting => view.newCycle

/-- The content of a weight file is read. -/
def sawFile (view : MainView) (name : String) : Except String String → MainView
  | .ok content =>
    if Draining content then { view with carried := (weightFileIp name).toList ++ view.carried }
    else view
  | .error _ => view

/-- The weight key of an address is read. -/
def sawKey (view : MainView) (ip_str : String) : Except String (Option String) → MainView
  | .ok (some value) => { view with carried := if Draining value then [ip_str] else [] }
  | .ok none | .error _ => { view with carried := [] }

/-- The owner of a lease is read for the snapshot. -/
def sawOwner (net : SlotNetwork) (view : MainView) (slot_str : String)
    (reply : Except String (Option String)) : MainView :=
  if view.phase = .collecting then
    let (owner, owner_cache) := resolveOwner view.owner_cache (slotNumber slot_str) reply
    { view with
      owner_cache
      leased := owner :: view.leased
      doomed :=
        if slotIp net slot_str ∈ view.carried then (slotIp net slot_str, owner) :: view.doomed
        else view.doomed }
  else view

/-- What the main task holds after an operation. -/
def after (net : SlotNetwork) (view : MainView) : Event Eff Eff.Reply → MainView
  | ⟨.ipAddrShow, _⟩ => view.newCycle
  | ⟨.readDir, _⟩ => view.listed
  | ⟨.readFile name, reply⟩ => view.sawFile name reply
  | ⟨.redis (.get (.backendWeight ip_str)), reply⟩ => view.sawKey ip_str reply
  | ⟨.redis (.get (.owner slot_str)), reply⟩ => view.sawOwner net slot_str reply
  | ⟨.redis (.set _ _), _⟩ => { view with carried := [] }
  | ⟨.writeFile name _, _⟩ => { view with carried := [], written := weightFileIp name }
  | ⟨.readIpvs, _⟩ => { view with phase := .collected, carried := [] }
  | _ => view

/-- What the main task may do next.  It writes draining for a backend that it drains, or for a value
that it carries, and persists what it carries.  An instance that owns a lease is terminated when the
snapshot pairs it with the draining backend that was disabled last. -/
def Allows (view : MainView) : Eff → Prop
  | .readFile _ => view.phase.InLoop
  | .writeFile name value => Draining value →
      view.phase.AfterCollect ∧ value = WEIGHT_DRAINING ∨
        ∀ ip_str, weightFileIp name = some ip_str → ip_str ∈ view.carried
  | .redis (.set (.backendWeight ip_str) value) => Draining value → ip_str ∈ view.carried
  | .redis (.set (.owner _) _) => False
  | .terminateInstance id _ => id ∈ view.leased →
      ∃ ip_str, view.written = some ip_str ∧ (ip_str, id) ∈ view.doomed ∧
        id ≠ OWNER_MISSING ∧ id ≠ OWNER_UNKNOWN
  | _ => True

theorem after_writeFile (net : SlotNetwork) (view : MainView) (name value : String)
    (r : Except String Unit) : view.after net ⟨.writeFile name value, r⟩ =
      { view with carried := [], written := weightFileIp name } := rfl

end MainView

/-- What a task holds after an operation: only the main task holds something. -/
def Task.after (net : SlotNetwork) : Task → MainView → Event Eff Eff.Reply → MainView
  | .main => MainView.after net
  | .listener => fun view _ => view

/-- What the listener may do: it issues no command, and it writes no draining weight. -/
def listenerAllows : Eff → Prop
  | .redis _ => False
  | .writeFile _ value => ¬Draining value
  | _ => True

def Task.Allows : Task → MainView → Eff → Prop
  | .main => MainView.Allows
  | .listener => fun _ => listenerAllows

section Follows

variable {net : SlotNetwork} {view : MainView} {cache : OwnerCache}

/-- The program keeps to what the main task may do, and ends as `Q` says. -/
abbrev Keeps (net : SlotNetwork) {α : Type} (Q : MainView → α → Prop) (view : MainView)
    (p : Daemon α) : Prop :=
  FollowsTo MainView.Allows (MainView.after net) Q view p

theorem Keeps.andThen {α β : Type} {Q : MainView → Except String α → Prop}
    {Q' : MainView → Except String β → Prop} {p : Daemon (Except String α)}
    {f : α → Daemon (Except String β)} (hp : Keeps net Q view p)
    (hok : ∀ view a, Q view (.ok a) → Keeps net Q' view (f a))
    (herror : ∀ view e, Q view (.error e) → Q' view (.error e)) :
    Keeps net Q' view (andThen p f) :=
  FollowsTo.bind hp fun view r h => by
    cases r with
    | ok a => exact hok view a h
    | error e => exact herror view e h

theorem Keeps.context {α : Type} {Q : MainView → Except String α → Prop} {text : String}
    {p : Daemon (Except String α)} (hp : Keeps net Q view p)
    (herror : ∀ view e e', Q view (.error e) → Q view (.error e')) :
    Keeps net Q view (context text p) :=
  FollowsTo.bind hp fun view r h => by
    cases r with
    | ok a => exact h
    | error e => exact herror view e _ h

/-- The phase and the cache, which most programs keep. -/
def MainView.At (phase : Phase) (cache : OwnerCache) (view : MainView) : Prop :=
  view.phase = phase ∧ view.owner_cache = cache

theorem forWeightFiles_keeps {phase : Phase} {failure : Option String}
    {body : String → String → Daemon (Except String Unit)} (names : List String)
    (hbody : ∀ name ip_str view, weightFileIp name = some ip_str → view.At phase cache →
      Keeps net (fun view _ => view.At phase cache) view (body name ip_str))
    (hview : view.At phase cache) :
    Keeps net (fun view _ => view.At phase cache) view (forWeightFiles failure body names) := by
  induction names generalizing view with
  | nil => cases failure <;> exact hview
  | cons name names ih =>
    rw [forWeightFiles]
    split
    · exact ih hview
    · next ip_str hname =>
      exact Keeps.andThen (hbody name ip_str view hname hview) (fun view _ h => ih h) fun _ _ h => h

theorem at_sawKey {phase : Phase} {ip_str : String} (hview : view.At phase cache)
    (reply : Except String (Option String)) : (view.sawKey ip_str reply).At phase cache := by
  unfold MainView.sawKey MainView.At
  split <;> exact ⟨hview.1, hview.2⟩

theorem mem_carried_sawKey {ip_str value : String} (hvalue : Draining value) :
    ip_str ∈ (view.sawKey ip_str (.ok (some value))).carried := by
  simp [MainView.sawKey, hvalue]

/-- A weight is written that is not draining, or that the task carries. -/
theorem writeFile_keeps {phase : Phase} {text name value ip_str : String}
    (hname : weightFileIp name = some ip_str) (hvalue : Draining value → ip_str ∈ view.carried)
    (hview : view.At phase cache) : Keeps net (fun view _ => view.At phase cache) view
      (context text (eff (.writeFile name value))) := by
  refine Keeps.context ⟨fun hdraining => .inr fun ip_str' hname' => ?_, fun _ => hview⟩
    fun _ _ _ h => h
  obtain rfl : ip_str = ip_str' := Option.some.inj (hname.symm.trans hname')
  exact hvalue hdraining

theorem restoreFile_keeps {phase : Phase} {name ip_str : String}
    (hname : weightFileIp name = some ip_str) (hview : view.At phase cache) :
    Keeps net (fun view _ => view.At phase cache) view (restoreFile name ip_str) := by
  refine ⟨trivial, fun val => ?_⟩
  have hview' : (view.sawKey ip_str val).At _ cache := at_sawKey hview val
  rcases val with e | _ | val
  · exact hview'
  · exact hview'
  · show Keeps net _ (view.sawKey ip_str (.ok (some val)))
      (context s!"Cannot write {name}" (eff (.writeFile name (trimText val))))
    exact writeFile_keeps hname (fun h => mem_carried_sawKey (draining_trimText.mp h)) hview'

theorem computeFile_keeps {phase : Phase} {live_ips : List Ipv4Addr} {name ip_str : String}
    (hname : weightFileIp name = some ip_str) (hview : view.At phase cache) :
    Keeps net (fun view _ => view.At phase cache) view (computeFile live_ips name ip_str) := by
  unfold computeFile
  split
  · exact hview
  · refine writeFile_keeps hname (fun h => absurd h ?_) hview
    split
    · exact not_draining_active
    · exact not_draining_disabled

/-- At the startup the owners of the leases are read for the weights only. -/
theorem readLeases_starting (hview : view.At .starting cache) :
    Keeps net (fun view _ => view.At .starting cache) view (readLeases fun _ => none) := by
  have howner : ∀ slot_str (view : MainView), view.At .starting cache → ∀ r,
      (view.sawOwner net slot_str r).At .starting cache := by
    intro slot_str view hview r
    rw [MainView.sawOwner, if_neg (by rw [hview.1]; decide)]
    exact hview
  refine FollowsTo.of_always hview ?_
  refine Always.andThen
    (Always.context ⟨fun _ h => ⟨trivial, fun _ => h⟩, fun _ => trivial⟩) fun raw => ?_
  refine Always.bind (Always.foldEach (fun acc entry _ => ?_) _) fun _ => trivial
  exact ⟨fun view h => ⟨trivial, howner entry.1 view h⟩, fun _ => trivial⟩

theorem initWeights_keeps {now ttl : ℕ} {lease_clock : ℕ → ℕ} (hview : view.At .starting cache) :
    Keeps net (fun view _ => view.At .restoring cache) view
      (initWeights net now lease_clock ttl) := by
  have hlist : ∀ {view : MainView} {body : String → String → Daemon (Except String Unit)},
      view.At .starting cache →
      (∀ name ip_str view, weightFileIp name = some ip_str → view.At .restoring cache →
        Keeps net (fun view _ => view.At .restoring cache) view (body name ip_str)) →
      Keeps net (fun view _ => view.At .restoring cache) view
        (Scale.andThen (eff .readDir) fun dir => forWeightFiles dir.failure body dir.names) := by
    intro view body hview hbody
    refine Keeps.andThen (Q := fun view _ => view.At .restoring cache) ⟨trivial, fun r => ?_⟩
      (fun view dir h => forWeightFiles_keeps dir.names hbody h) fun _ _ h => h
    show view.listed.At .restoring cache
    rw [MainView.listed, hview.1]
    exact ⟨rfl, hview.2⟩
  refine ⟨trivial, fun ts => ?_⟩
  refine followsTo_ite.mpr ⟨fun _ => ?_, fun _ => ?_⟩
  · exact hlist hview fun _ _ _ => restoreFile_keeps
  · exact FollowsTo.bind (readLeases_starting hview) fun view _ h =>
      hlist h fun _ _ _ => computeFile_keeps

theorem at_sawFile {phase : Phase} {name : String} (hview : view.At phase cache)
    (reply : Except String String) : (view.sawFile name reply).At phase cache := by
  unfold MainView.sawFile MainView.At
  split
  · split <;> exact ⟨hview.1, hview.2⟩
  · exact hview

theorem carried_sawFile {name : String} (reply : Except String String) {ip_str : String}
    (h : ip_str ∈ view.carried) : ip_str ∈ (view.sawFile name reply).carried := by
  unfold MainView.sawFile
  split
  · split
    · exact List.mem_append_right _ h
    · exact h
  · exact h

theorem mem_carried_sawFile {name ip_str content : String} (hname : weightFileIp name = some ip_str)
    (hcontent : Draining content) : ip_str ∈ (view.sawFile name (.ok content)).carried := by
  simp [MainView.sawFile, hcontent, hname]

theorem syncFile_keeps {name ip_str : String} (hname : weightFileIp name = some ip_str)
    (hview : view.At .collecting cache) :
    Keeps net (fun view _ => view.At .collecting cache) view (syncFile name ip_str) := by
  refine ⟨trivial, fun val => ?_⟩
  have hview' : (view.sawKey ip_str val).At _ cache := at_sawKey hview val
  rcases val with e | _ | val
  · exact hview'
  · exact hview'
  · have hloop : (view.sawKey ip_str (.ok (some val))).phase.InLoop := by
      rw [hview'.1]
      trivial
    refine ⟨hloop, fun disk => followsTo_ite.mpr ⟨fun _ => at_sawFile hview' disk, fun _ => ?_⟩⟩
    refine writeFile_keeps hname (fun h => carried_sawFile disk ?_) (at_sawFile hview' disk)
    exact mem_carried_sawKey (draining_trimText.mp h)

theorem syncFromRedis_keeps (hview : view.At .collecting cache) :
    Keeps net (fun view _ => view.At .collecting cache) view syncFromRedis := by
  refine Keeps.andThen (Q := fun view _ => view.At .collecting cache)
    (Keeps.context ⟨trivial, fun r => ?_⟩ fun _ _ _ h => h)
    (fun view dir h => forWeightFiles_keeps dir.names (fun _ _ _ => syncFile_keeps) h)
      fun _ _ h => h
  show view.listed.At .collecting cache
  rw [MainView.listed, hview.1]
  exact ⟨rfl, hview.2⟩

theorem persistFile_keeps {name ip_str : String} (hname : weightFileIp name = some ip_str)
    (hview : view.At .persisting cache) :
    Keeps net (fun view _ => view.At .persisting cache) view (persistFile name ip_str) := by
  have hloop : view.phase.InLoop := by
    rw [hview.1]
    trivial
  refine ⟨hloop, fun content => ?_⟩
  have hview' : (view.sawFile name content).At .persisting cache := at_sawFile hview content
  cases content with
  | error e => exact hview'
  | ok content =>
    refine Keeps.context ⟨fun h => mem_carried_sawFile hname (draining_trimText.mp h), fun _ => ?_⟩
      fun _ _ _ h => h
    exact ⟨hview'.1, hview'.2⟩

theorem persist_keeps {now : ℕ} (hview : view.At .collected cache) :
    Keeps net (fun view _ => view.At .persisting cache) view (persist now) := by
  refine Keeps.andThen (Q := fun view _ => view.At .persisting cache)
    (Keeps.context ⟨trivial, fun r => ?_⟩ fun _ _ _ h => h) (fun view dir h => ?_) fun _ _ h => h
  · show view.listed.At .persisting cache
    rw [MainView.listed, hview.1]
    exact ⟨rfl, hview.2⟩
  · refine Keeps.andThen (forWeightFiles_keeps dir.names (fun _ _ _ => persistFile_keeps) h)
      (fun view _ h => ?_) fun _ _ h => h
    exact Keeps.context ⟨trivial, fun _ => ⟨h.1, h.2⟩⟩ fun _ _ _ h => h

end Follows

section Collect

variable {net : SlotNetwork} {view : MainView} {cache : OwnerCache}

/-- The weights that were read: a draining one is carried, and no owner is read yet. -/
structure MainView.Carries (view : MainView) (weights : List WeightEntry) : Prop where
  leased : view.leased = []
  carried : ∀ w ∈ weights, w.state = .draining → String.ofList w.ip.display ∈ view.carried

/-- The owners that were read are those of the leases, and the owner of a draining backend is paired
with it. -/
structure MainView.Pairs (net : SlotNetwork) (weights : List WeightEntry) (view : MainView)
    (leases : List SlotLease) : Prop where
  carried : ∀ w ∈ weights, w.state = .draining → String.ofList w.ip.display ∈ view.carried
  leased : ∀ id, id ∈ view.leased ↔ ∃ l ∈ leases, l.owner_instance_id = id
  doomed : ∀ l ∈ leases, ∀ w ∈ weights, w.state = .draining → net.ipForSlot l.slot = w.ip →
    (String.ofList w.ip.display, l.owner_instance_id) ∈ view.doomed

/-- The owners of the leases of a snapshot are held, and the owner of a draining backend is paired
with it. -/
structure MainView.Tracks (view : MainView) (snapshot : SystemSnapshot) : Prop where
  leased : ∀ id, id ∈ view.leased ↔ id ∈ snapshot.leasedOwners
  doomed : ∀ l ∈ snapshot.leases, ∀ b ∈ snapshot.backendOf l.slot, b.weight_state = .draining →
    (String.ofList b.ip.display, l.owner_instance_id) ∈ view.doomed

theorem readWeightFiles_keeps {failure : Option String} {names : List String}
    {entries : List WeightEntry} (hview : view.At .collecting cache)
    (hcarries : view.Carries entries) :
    Keeps net (fun view r => view.At .collecting cache ∧ ∀ ws, r = .ok ws → view.Carries ws) view
      (readWeightFiles failure names entries) := by
  induction names generalizing view entries with
  | nil =>
    cases failure with
    | none => exact ⟨hview, fun ws h => Except.ok.inj h ▸ hcarries⟩
    | some e => exact ⟨hview, fun _ h => by cases h⟩
  | cons name names ih =>
    rw [readWeightFiles]
    split
    · exact ih hview hcarries
    · next ip hip =>
      have hloop : view.phase.InLoop := by
        rw [hview.1]
        trivial
      refine Keeps.andThen (Q := fun view' r => view'.At .collecting cache ∧ view'.leased = [] ∧
        ∀ raw, r = .ok raw → view' = view.sawFile name (.ok raw))
          (Keeps.context ⟨hloop, fun r => ?_⟩ ?_)
        (fun view' raw h => ?_) fun _ _ h => ⟨h.1, fun _ h => by cases h⟩
      · refine ⟨at_sawFile hview r, ?_, fun raw h => h ▸ rfl⟩
        show (view.sawFile name r).leased = []
        unfold MainView.sawFile
        split
        · split <;> exact hcarries.leased
        · exact hcarries.leased
      · exact fun _ _ _ h => ⟨h.1, h.2.1, fun _ h => by cases h⟩
      · obtain ⟨hat, hleased, hraw⟩ := h
        obtain rfl := hraw raw rfl
        refine ih hat ⟨hleased, fun w hw hdraining => ?_⟩
        rcases List.mem_append.mp hw with hw | hw
        · exact carried_sawFile _ (hcarries.carried w hw hdraining)
        · obtain rfl := List.mem_singleton.mp hw
          dsimp only at hdraining
          refine mem_carried_sawFile ?_ (draining_iff.mpr hdraining)
          rw [(weightIp_eq_some hip).2, weightFile_eq]
          exact weightFileIp_iff.mpr rfl

theorem readWeights_keeps (hcache : view.owner_cache = cache)
    (hlisted : view.listed = view.newCycle) :
    Keeps net (fun view r => view.At .collecting cache ∧ ∀ ws, r = .ok ws → view.Carries ws) view
      readWeights := by
  refine Keeps.andThen (Q := fun view _ => view.At .collecting cache ∧ view.leased = [])
    (Keeps.context ⟨trivial, fun r => ?_⟩ fun _ _ _ h => h) (fun view dir h => ?_)
    fun _ _ h => ⟨h.1, nofun⟩
  · show view.listed.At .collecting cache ∧ view.listed.leased = []
    rw [hlisted]
    exact ⟨⟨rfl, hcache⟩, rfl⟩
  · refine Keeps.andThen (readWeightFiles_keeps h.1 ⟨h.2, by simp⟩) (fun view ws h => ⟨h.1, ?_⟩)
      fun _ _ h => ⟨h.1, nofun⟩
    rintro _ ⟨⟩
    obtain ⟨hleased, hcarried⟩ := h.2 ws rfl
    have hperm := List.perm_insertionSort (fun a b : WeightEntry => a.ip ≤ b.ip) ws
    exact ⟨hleased, fun w hw => hcarried w (hperm.mem_iff.mp hw)⟩

theorem readLease_keeps {weights : List WeightEntry} {acc : List SlotLease × OwnerCache}
    {entry : String × ℕ} (hview : view.At .collecting acc.2)
    (hpairs : view.Pairs net weights acc.1) :
    Keeps net (fun view acc => view.At .collecting acc.2 ∧ view.Pairs net weights acc.1) view
      (readLease acc entry) := by
  refine ⟨trivial, fun r => ?_⟩
  have hsaw : view.after net ⟨.redis (.get (.owner entry.1)), r⟩ =
    view.sawOwner net entry.1 r := rfl
  rw [hsaw, MainView.sawOwner, if_pos hview.1, hview.2]
  refine ⟨⟨hview.1, rfl⟩, hpairs.carried, fun id => ?_, fun l hl w hw hdraining hip => ?_⟩
  · simp only [List.mem_cons, hpairs.leased, List.mem_append, List.mem_nil_iff, or_false,
      or_and_right, exists_or, exists_eq_left]
    rw [or_comm, eq_comm]
    rfl
  · rcases List.mem_append.mp hl with hl | hl
    · have hdoomed := hpairs.doomed l hl w hw hdraining hip
      dsimp only
      split
      · exact List.mem_cons_of_mem _ hdoomed
      · exact hdoomed
    · obtain rfl := List.mem_singleton.mp hl
      have hslot : slotIp net entry.1 = String.ofList w.ip.display := by rw [slotIp, hip]
      dsimp only
      rw [hslot, if_pos (hpairs.carried w hw hdraining)]
      exact List.mem_cons_self

theorem readLeases_keeps {weights : List WeightEntry} (hview : view.At .collecting cache)
    (hcarries : view.Carries weights) :
    Keeps net (fun view r => (∀ e, r = .error e → view.At .collecting cache) ∧
      ∀ ls cache', r = .ok (ls, cache') → view.At .collecting cache' ∧
        view.Pairs net weights ls) view
      (readLeases cache) := by
  refine Keeps.andThen (Q := fun view _ => view.At .collecting cache ∧ view.Carries weights)
    (Keeps.context ⟨trivial, fun _ => ⟨hview, hcarries⟩⟩ fun _ _ _ h => h) (fun view raw h => ?_)
    fun _ _ h => ⟨fun _ _ => h.1, nofun⟩
  have hnil : view.Pairs net weights [] :=
    ⟨h.2.carried, by simp [h.2.leased], by simp⟩
  refine FollowsTo.bind (FollowsTo.foldEach
    (I := fun view acc => view.At .collecting acc.2 ∧ view.Pairs net weights acc.1) ⟨h.1, hnil⟩
    fun entry _ view acc h => readLease_keeps h.1 h.2) fun view acc h => ⟨nofun, ?_⟩
  rintro _ _ ⟨⟩
  have hperm := List.perm_insertionSort (fun a b : SlotLease => a.slot ≤ b.slot) acc.1
  refine ⟨h.1, h.2.carried, fun id => ?_, fun l hl => h.2.doomed l (hperm.mem_iff.mp hl)⟩
  simp only [h.2.leased, hperm.mem_iff]

theorem backendOf_assemble {weights : List WeightEntry} {leases : List SlotLease}
    {asg : Option AsgGroupInfo × List AsgInstance} {ipvs : List IpvsBackend} {slot : ℕ}
    {b : BackendStatus} (h : (assemble net weights leases asg ipvs).backendOf slot = some b) :
    ∃ w ∈ weights, b.ip = w.ip ∧ b.weight_state = w.state ∧ net.ipForSlot slot = w.ip := by
  obtain ⟨w, hw, rfl⟩ := List.mem_map.mp (List.mem_of_find?_eq_some h)
  have hslot := List.find?_some h
  simp only [decide_eq_true_eq] at hslot
  obtain ⟨l, hl, rfl⟩ := Option.map_eq_some_iff.mp hslot
  exact ⟨w, hw, rfl, rfl, by simpa using List.find?_some hl⟩

theorem MainView.Pairs.tracks {weights : List WeightEntry} {leases : List SlotLease}
    {asg : Option AsgGroupInfo × List AsgInstance} {ipvs : List IpvsBackend}
    (h : view.Pairs net weights leases) : view.Tracks (assemble net weights leases asg ipvs) where
  leased id := (h.leased id).trans List.mem_map.symm
  doomed l hl b hb hdraining := by
    obtain ⟨w, hw, hip, hstate, hslot⟩ := backendOf_assemble hb
    rw [hip]
    exact h.doomed l hl w hw (hstate ▸ hdraining) hslot

theorem collect_keeps (hcache : view.owner_cache = cache) (hlisted : view.listed = view.newCycle) :
    Keeps net (fun view r => (∀ e, r.1 = .error e → view.At .collecting r.2) ∧
      ∀ snapshot, r.1 = .ok snapshot → view.At .collected r.2 ∧ view.Tracks snapshot) view
      (collect net cache) := by
  refine FollowsTo.bind (readWeights_keeps hcache hlisted) fun view weights h => ?_
  cases weights with
  | error e => exact ⟨fun _ _ => h.1, nofun⟩
  | ok weights =>
    refine FollowsTo.bind (readLeases_keeps h.1 (h.2 weights rfl)) fun view leases h => ?_
    cases leases with
    | error e => exact ⟨fun _ _ => h.1 e rfl, nofun⟩
    | ok leases =>
      obtain ⟨hview, hpairs⟩ := h.2 leases.1 leases.2 rfl
      refine ⟨trivial, fun groups => ⟨trivial, fun content => ⟨nofun, ?_⟩⟩⟩
      rintro _ ⟨⟩
      have htracks : view.Tracks
        (assemble net weights leases.1 (asgOfReply groups) (ipvsOf content)) :=
        hpairs.tracks
      exact ⟨⟨rfl, hview.2⟩, htracks.leased, htracks.doomed⟩

end Collect

section Cycle

variable {net : SlotNetwork} {view : MainView} {cache : OwnerCache} {snapshot : SystemSnapshot}
  {clock : PassClock} {dry_run term_decrements_capacity : Bool}

/-- What holds during the cleanup. -/
structure MainView.Cleaning (snapshot : SystemSnapshot) (cache : OwnerCache) (view : MainView) :
    Prop where
  at_collected : view.At .collected cache
  tracks : view.Tracks snapshot

theorem MainView.Cleaning.wrote (h : view.Cleaning snapshot cache) (written : Option String) :
    ({ view with carried := [], written } : MainView).Cleaning snapshot cache :=
  ⟨⟨h.1.1, h.1.2⟩, h.2.1, h.2.2⟩

theorem writeWeight_keeps {ip : Ipv4Addr} {value : String} (hvalue : ¬Draining value)
    (hview : view.Cleaning snapshot cache) :
    Keeps net (fun view _ => view.Cleaning snapshot cache) view (writeWeight ip value dry_run) := by
  refine followsTo_ite.mpr ⟨fun _ => hview, fun _ => ?_⟩
  exact Keeps.context ⟨fun h => absurd h hvalue, fun _ => hview.wrote _⟩ fun _ _ _ h => h

theorem releaseSlot_keeps {slot now : ℕ} {owner : String} (hview : view.Cleaning snapshot cache) :
    Keeps net (fun view _ => view.Cleaning snapshot cache) view
      (releaseSlot slot owner now dry_run) := by
  refine followsTo_ite.mpr ⟨fun _ => hview, fun _ => ?_⟩
  have hwrite : ∀ {view : MainView} {text c} (_ : view.Allows (.redis c))
      (_ : ∀ r, (view.after net ⟨.redis c, r⟩).Cleaning snapshot cache),
      Keeps net (fun view _ => view.Cleaning snapshot cache) view (context text (eff (.redis c))) :=
    fun hallows hview => Keeps.context ⟨hallows, hview⟩ fun _ _ _ h => h
  refine Keeps.andThen (hwrite trivial fun _ => hview) (fun view _ hview => ?_) fun _ _ h => h
  refine Keeps.andThen (hwrite trivial fun _ => hview) (fun view _ hview => ?_) fun _ _ h => h
  exact hwrite trivial fun _ => hview

/-- The owner that a lease retires is the one that its snapshot pairs with the draining backend. -/
theorem perform_keeps {lease : SlotLease} (hlease : lease ∈ snapshot.leases) {action : LeaseAction}
    (haction : leaseAction snapshot clock lease = action) (hview : view.Cleaning snapshot cache) :
    Keeps net (fun view _ => view.Cleaning snapshot cache) view
      (action.perform clock dry_run term_decrements_capacity lease) := by
  cases action with
  | skip => exact hview
  | enable ip => exact writeWeight_keeps not_draining_active hview
  | release backend =>
    refine Keeps.andThen (releaseSlot_keeps hview) (fun view _ hview => ?_) fun _ _ h => h
    cases backend with
    | none => exact hview
    | some ip => exact writeWeight_keeps not_draining_disabled hview
  | retire ip =>
    obtain ⟨⟨hknown, -⟩, b, hb, hdraining, -, -, rfl⟩ := leaseAction_eq_retire.mp haction
    cases dry_run with
    | true => exact hview
    | false =>
      refine Keeps.andThen (Q := fun view _ => view.Cleaning snapshot cache ∧
        view.written = some (String.ofList b.ip.display))
        (Keeps.context ⟨fun h => absurd h not_draining_disabled, fun _ => ⟨hview.wrote _, ?_⟩⟩
          fun _ _ _ h => h)
        (fun view _ h => ⟨fun _ => ⟨_, h.2, ?_, hknown⟩, fun _ => h.1⟩) fun _ _ h => h.1
      · rw [MainView.after_writeFile, weightFileIp_weightFile]
      · exact h.1.tracks.doomed lease hlease b hb hdraining

theorem section21_keeps (hview : view.Cleaning snapshot cache) :
    Keeps net (fun view _ => view.Cleaning snapshot cache) view
      (section21 snapshot clock dry_run term_decrements_capacity) := by
  rw [section21_eq]
  refine followsTo_ite.mpr ⟨fun _ => ?_, fun _ => hview⟩
  refine FollowsTo.forEach hview fun lease hlease view hview => ?_
  rw [handleLease_eq]
  exact FollowsTo.bind (perform_keeps hlease rfl hview) fun _ _ h => h

theorem section22_keeps {state : CleanupState} {grace : ℕ} (hview : view.Cleaning snapshot cache) :
    Keeps net (fun view _ => view.Cleaning snapshot cache) view
      (section22 snapshot state clock dry_run grace) := by
  refine FollowsTo.bind (FollowsTo.foldEach (I := fun view _ => view.Cleaning snapshot cache) hview
    fun inst _ view acc hview => ?_) fun _ _ h => h
  unfold visitInstance
  dsimp only
  split
  · exact hview
  · next hleased =>
    split
    · exact hview
    · refine followsTo_ite.mpr ⟨fun _ => hview, fun _ => ?_⟩
      refine FollowsTo.bind (Q := fun view _ => view.Cleaning snapshot cache) ?_ fun _ _ h => h
      refine followsTo_ite.mpr ⟨fun _ => hview, fun _ => ⟨fun hmem => ?_, fun _ => hview⟩⟩
      exact absurd ((hview.tracks.leased _).mp hmem) hleased

theorem section23_keeps (hview : view.Cleaning snapshot cache) :
    Keeps net (fun view _ => view.Cleaning snapshot cache) view (section23 snapshot dry_run) := by
  refine FollowsTo.forEach hview fun b _ view hview => ?_
  refine followsTo_ite.mpr ⟨fun _ => hview, fun _ => ?_⟩
  split
  · exact FollowsTo.bind (writeWeight_keeps not_draining_disabled hview) fun _ _ h => h
  · exact FollowsTo.bind (writeWeight_keeps not_draining_disabled hview) fun _ _ h => h
  · exact hview
  · exact hview

theorem cleanupRun_keeps {is_master : Bool} {state : CleanupState} {grace : ℕ}
    (hview : view.Cleaning snapshot cache) :
    Keeps net (fun view _ => view.Cleaning snapshot cache) view
      (cleanupRun snapshot clock dry_run is_master term_decrements_capacity state grace) := by
  refine followsTo_ite.mpr ⟨fun _ => hview, fun _ => ?_⟩
  refine FollowsTo.bind (section21_keeps hview) fun view _ hview => ?_
  refine FollowsTo.bind (section22_keeps hview) fun view _ hview => ?_
  exact FollowsTo.bind (section23_keeps hview) fun _ _ h => h

variable {F : Type} [Scalar F]

theorem scalerRun_keeps {config : ScaleConfig F} {state : ScalerState F} {clock : ScalerClock}
    (hview : view.At .persisting cache) :
    Keeps net (fun view _ => view.At .persisting cache) view
      (scalerRun snapshot config state clock dry_run) := by
  refine followsTo_ite.mpr ⟨fun _ => hview, fun _ => ?_⟩
  refine FollowsTo.bind (FollowsTo.of_always hview (evaluateScaleUp_always.mono fun e he => ?_))
    fun view state hview => ?_
  · rcases he with rfl | ⟨-, n, rfl⟩ <;> exact fun _ h => ⟨trivial, fun _ => h⟩
  · unfold evaluateDrain
    dsimp only
    split
    · exact hview
    · refine FollowsTo.bind (Q := fun view _ => view.At .persisting cache) ?_ fun view r h => ?_
      · refine followsTo_ite.mpr ⟨fun _ => hview, fun _ => ?_⟩
        refine Keeps.context ⟨fun _ => .inl ⟨?_, rfl⟩, fun _ => ⟨hview.1, hview.2⟩⟩ fun _ _ _ h => h
        rw [hview.1]
        trivial
      · cases r <;> exact h

/-- After a cycle the view shows the owner cache, and after a cycle of the master, where no role
check needs to follow, the next listing of the files starts a cycle. -/
def MainView.EndsCycle (is_master : Bool) (view : MainView) (state : DaemonState F) : Prop :=
  view.owner_cache = state.owner_cache ∧ (is_master = true → view.listed = view.newCycle)

theorem cycleAs_keeps {cfg : DaemonConfig F} {is_master : Bool} {clock : CycleClock}
    {state : DaemonState F} (hcache : view.owner_cache = state.owner_cache)
    (hlisted : view.listed = view.newCycle)
    (hbackup : is_master = false → view.phase = .collecting) :
    Keeps cfg.net (MainView.EndsCycle is_master) view (cycleAs cfg is_master clock state) := by
  cases is_master with
  | false =>
    refine FollowsTo.bind (syncFromRedis_keeps ⟨hbackup rfl, hcache⟩) fun view _ hview => ?_
    have hlisted : view.listed = view.newCycle := by rw [MainView.listed, hview.1]
    refine FollowsTo.bind (collect_keeps hview.2 hlisted) fun view r h => ?_
    obtain ⟨snapshot | snapshot, cache⟩ := r
    · exact ⟨(h.1 _ rfl).2, nofun⟩
    · obtain ⟨hview, htracks⟩ := h.2 _ rfl
      refine FollowsTo.bind (cleanupRun_keeps ⟨hview, htracks⟩) fun view _ hview => ?_
      exact ⟨hview.1.2, nofun⟩
  | true =>
    refine FollowsTo.bind (collect_keeps hcache hlisted) fun view r h => ?_
    obtain ⟨snapshot | snapshot, cache⟩ := r
    · have hview := h.1 _ rfl
      exact ⟨hview.2, fun _ => by rw [MainView.listed, hview.1]⟩
    · obtain ⟨hview, htracks⟩ := h.2 _ rfl
      refine FollowsTo.bind (cleanupRun_keeps ⟨hview, htracks⟩) fun view _ hview => ?_
      refine FollowsTo.bind (persist_keeps hview.1) fun view _ hview => ?_
      refine FollowsTo.bind (scalerRun_keeps hview) fun view _ hview => ?_
      exact ⟨hview.2, fun _ => by rw [MainView.listed, hview.1]⟩

theorem refreshLoop_keeps {cfg : DaemonConfig F} {clocks : List CycleClock} {state : DaemonState F}
    (hcache : view.owner_cache = state.owner_cache)
    (hlisted : cfg.vip_inside = none → view.listed = view.newCycle) :
    Keeps cfg.net (fun _ _ => True) view (refreshLoop cfg clocks state) := by
  induction clocks generalizing view state with
  | nil => trivial
  | cons clock clocks ih =>
    unfold refreshLoop readRole
    cases hvip : cfg.vip_inside with
    | none =>
      have hcycle : Keeps cfg.net (MainView.EndsCycle true) view
          (cycleAs cfg true clock state) :=
        cycleAs_keeps hcache (hlisted hvip) (absurd · (by decide))
      exact FollowsTo.bind (Q := MainView.EndsCycle true) hcycle fun view state h =>
        ih h.1 fun _ => h.2 rfl
    | some vip =>
      refine ⟨trivial, fun output => ?_⟩
      have hcycle : Keeps cfg.net (MainView.EndsCycle (holdsVip vip output)) view.newCycle
          (cycleAs cfg (holdsVip vip output) clock state) :=
        cycleAs_keeps hcache rfl fun _ => rfl
      refine FollowsTo.bind (Q := MainView.EndsCycle (holdsVip vip output)) hcycle
        fun view state h => ih h.1 fun hnone => ?_
      rw [hvip] at hnone
      cases hnone

omit [Scalar F] in
theorem handleMessage_allows {cfg : DaemonConfig F} {msg : AsgChangeMsg} :
    (handleMessage cfg msg).Always listenerAllows := by
  have hwrite : ∀ {ip value}, ¬Draining value →
      (writeWeight ip value cfg.dry_run).Always listenerAllows := fun hvalue =>
    always_ite.mpr ⟨fun _ => trivial, fun _ => Always.context ⟨hvalue, fun _ => trivial⟩⟩
  unfold handleMessage
  refine always_ite.mpr ⟨fun _ => ?_, fun _ => always_ite.mpr ⟨fun _ => ?_, fun _ => trivial⟩⟩
  · exact Always.bind (hwrite not_draining_active) fun _ => trivial
  · refine Always.bind (hwrite not_draining_disabled) fun _ => ?_
    split
    · refine Always.bind ?_ fun _ => trivial
      exact always_ite.mpr ⟨fun _ => trivial, fun _ => ⟨trivial, fun _ => trivial⟩⟩
    · trivial

omit [Scalar F] in
theorem listenerTask_allows {cfg : DaemonConfig F} (rounds : ℕ) (subscribed : Bool) :
    (listenerTask cfg rounds subscribed).Always listenerAllows := by
  induction rounds generalizing subscribed with
  | zero => trivial
  | succ rounds ih =>
    cases subscribed with
    | false =>
      refine ⟨trivial, fun r => ?_⟩
      cases r <;> exact ih _
    | true =>
      refine ⟨trivial, fun r => ?_⟩
      rcases r with _ | e | msg
      · exact ih false
      · exact ih true
      · show Always _ (handleMessage cfg msg >>= fun _ => listenerTask cfg rounds true)
        exact Always.bind handleMessage_allows fun _ => ih true

theorem NodeSetup.task_keeps (node : NodeSetup F) (task : Task) :
    Follows task.Allows (task.after node.cfg.net) .start (node.task task) := by
  cases task with
  | listener =>
    have hkeeps : FollowsTo (Task.Allows .listener) (Task.after node.cfg.net .listener)
        (fun _ _ => True) .start (node.task .listener) :=
      FollowsTo.of_always (I := fun _ => True) trivial <|
        (listenerTask_allows _ _).mono fun e he _ _ => ⟨he, fun _ => trivial⟩
    exact Program.bind_ret (node.task .listener) ▸ hkeeps.follows fun _ _ _ => trivial
  | main =>
    have hstart : MainView.start.At .starting fun _ => none := ⟨rfl, rfl⟩
    refine FollowsTo.follows (initWeights_keeps hstart) fun view _ h => ?_
    have hloop : Keeps node.cfg.net (fun _ _ => True) view
        (refreshLoop node.cfg node.clocks ⟨fun _ => none, ⟨fun _ => none⟩, .default⟩) :=
      refreshLoop_keeps h.2 fun _ => by rw [MainView.listed, h.1]
    exact Program.bind_ret (refreshLoop node.cfg node.clocks _) ▸ hloop.follows fun _ _ _ => trivial

end Cycle

end Aerosuite.Scale
