import Aerosuite.Scale.Roles
import Aerosuite.Scale.ScalerSteps

/-! A daemon on a dry run.  The cleanup, the scaler and the listener get the flag, but the startup,
the persisting of the weights and their sync do not: they write as soon as they read something to
write. -/

namespace Aerosuite.Scale

open Pool Program

variable {F N : Type}

/-- The command changes a key. -/
def changesKey : Cmd ℕ → Bool
  | .zadd .. | .zaddNX .. | .zrem .. | .zpopmin _ | .set .. | .del _ => true
  | .zscore .. | .zrangebyscore .. | .zrangeWithScores _ | .get _ | .publish _ => false

/-- The operation writes a file, changes a Redis key, terminates an instance or sets the
capacity. -/
def Eff.mutates : Eff → Bool
  | .redis c => changesKey c
  | .writeFile .. | .terminateInstance .. | .setDesired _ => true
  | _ => false

/-- Where the main task stands: before it knows whether the persisted state is fresh, before it
lists the files to restore or to compute, while it restores them, in a cycle before and after it has
its snapshot, and while it persists. -/
inductive Stage where
  | starting
  | restoring
  | computing
  | restored
  | looping
  | collected
  | persisting
  deriving DecidableEq

/-- What the main task goes by: its stage, the persisted weight that it is about to compare with a
file, and whether all replies so far were quiet. -/
structure DryView where
  stage : Stage
  pending : Option String
  quiet : Bool

namespace DryView

def start : DryView := ⟨.starting, none, true⟩

/-- The reply lets the task go on without a write.  At the startup no persisted weight is found, or
no file stands for an address.  The backup finds its files equal to the persisted weights.  The
master cannot list the files to persist to the end, and reads none of them. -/
def Quiet (view : DryView) : Event Eff Eff.Reply → Bool
  | ⟨.redis (.get (.backendWeight _)), reply⟩ =>
    view.stage ≠ .restored || (reply.toOption.getD none).isNone
  | ⟨.readDir, .ok dir⟩ =>
    (view.stage ≠ .computing || dir.names.all fun name => (weightIp name).isNone) &&
      (view.stage ≠ .collected || dir.failure.isSome)
  | ⟨.readFile _, reply⟩ =>
    if view.stage = .persisting then !reply.isOk
    else view.pending.all fun val => trimText (reply.toOption.getD "") = trimText val
  | _ => true

/-- The stage after a directory is listed. -/
def listed : Stage → Stage
  | .starting => .starting
  | .restoring => .restored
  | .collected => .persisting
  | .computing | .restored | .looping | .persisting => .looping

/-- The stage and the pending weight after an operation. -/
def step (now ttl_secs : ℕ) (view : DryView) : Event Eff Eff.Reply → Stage × Option String
  | ⟨.redis (.get .backendWeightsTs), ts⟩ =>
    (if isFresh (ts.toOption.getD none) now ttl_secs then .restoring else .computing, view.pending)
  | ⟨.redis (.get (.backendWeight _)), reply⟩ => (view.stage, reply.toOption.getD none)
  | ⟨.readDir, _⟩ => (listed view.stage, none)
  | ⟨.readFile _, _⟩ => (view.stage, none)
  | ⟨.readIpvs, _⟩ => (.collected, none)
  | ⟨.ipAddrShow, _⟩ => (.looping, none)
  | _ => (view.stage, view.pending)

def after (now ttl_secs : ℕ) (view : DryView) (ev : Event Eff Eff.Reply) : DryView :=
  ⟨(view.step now ttl_secs ev).1, (view.step now ttl_secs ev).2, view.quiet && view.Quiet ev⟩

/-- As long as its replies are quiet, the task changes nothing. -/
def Allows (view : DryView) (e : Eff) : Prop := view.quiet = true → e.mutates = false

end DryView

section Views

variable (nodes : N → NodeSetup F)

/-- What a task goes by after an operation: the listener goes by nothing. -/
def dryAfter (who : N × Task) (view : DryView) (ev : Event Eff Eff.Reply) : DryView :=
  match who.2 with
  | .main => view.after (nodes who.1).start.init (nodes who.1).cfg.weight_state_ttl ev
  | .listener => view

/-- What each task goes by after a history. -/
def dryViews [DecidableEq N] (hist : List (DaemonStep N)) : N × Task → DryView :=
  protocolState (dryAfter nodes) (fun _ => .start) hist

/-- On a dry run the main task changes nothing as long as its replies are quiet, and the listener
changes nothing at all. -/
def DryAllows (who : N × Task) (view : DryView) (e : Eff) : Prop :=
  (nodes who.1).cfg.dry_run = true →
    match who.2 with
    | .main => view.Allows e
    | .listener => e.mutates = false

end Views

section Follows

variable {now ttl_secs : ℕ} {view : DryView}

/-- The program changes nothing as long as its replies are quiet, and ends as `Q` says. -/
abbrev StaysDry (now ttl_secs : ℕ) {α : Type} (Q : DryView → α → Prop) (view : DryView)
    (p : Daemon α) : Prop :=
  FollowsTo DryView.Allows (DryView.after now ttl_secs) Q view p

/-- After a reply that was not quiet the program may do anything. -/
theorem staysDry_of_loud {α : Type} {Q : DryView → α → Prop} {p : Daemon α} (h : view.quiet = false)
    (hQ : ∀ view a, view.quiet = false → Q view a) : StaysDry now ttl_secs Q view p := by
  induction p generalizing view with
  | ret a => exact hQ view a h
  | call e k ih =>
    refine ⟨fun hquiet => by simp [h] at hquiet, fun r => ih r ?_⟩
    simp [DryView.after, h]

/-- The stage, with nothing to compare. -/
def DryView.At (stage : Stage) (view : DryView) : Prop :=
  view.quiet = true → view.stage = stage ∧ view.pending = none

/-- The next listing is none to compute or to persist from. -/
def Stage.Relists : Stage → Prop
  | .restored | .looping | .persisting => True
  | .starting | .restoring | .computing | .collected => False

/-- A cycle may collect its snapshot. -/
def DryView.Ready (view : DryView) : Prop :=
  view.quiet = true → view.stage.Relists ∧ view.pending = none

theorem DryView.At.ready {stage : Stage} (h : view.At stage) (hstage : stage.Relists) :
    view.Ready :=
  fun hquiet => ⟨(h hquiet).1 ▸ hstage, (h hquiet).2⟩

theorem quiet_of_after {ev : Event Eff Eff.Reply} (h : (view.after now ttl_secs ev).quiet = true) :
    view.quiet = true ∧ view.Quiet ev = true := Bool.and_eq_true_iff.mp h

theorem at_after {stage stage' : Stage} {ev : Event Eff Eff.Reply} (h : view.At stage)
    (hstep : ∀ view : DryView, view.stage = stage → view.pending = none →
      view.step now ttl_secs ev = (stage', none)) : (view.after now ttl_secs ev).At stage' := by
  intro hquiet
  obtain ⟨hstage, hpending⟩ := h (quiet_of_after hquiet).1
  have hview := hstep view hstage hpending
  exact ⟨congrArg Prod.fst hview, congrArg Prod.snd hview⟩

theorem StaysDry.andThen {α β : Type} {Q : DryView → Except String α → Prop}
    {Q' : DryView → Except String β → Prop} {p : Daemon (Except String α)}
    {f : α → Daemon (Except String β)} (hp : StaysDry now ttl_secs Q view p)
    (hok : ∀ view a, Q view (.ok a) → StaysDry now ttl_secs Q' view (f a))
    (herror : ∀ view e, Q view (.error e) → Q' view (.error e)) :
    StaysDry now ttl_secs Q' view (andThen p f) :=
  FollowsTo.bind hp fun view r h => by
    cases r with
    | ok a => exact hok view a h
    | error e => exact herror view e h

theorem StaysDry.context {α : Type} {Q : DryView → Except String α → Prop} {text : String}
    {p : Daemon (Except String α)} (hp : StaysDry now ttl_secs Q view p)
    (herror : ∀ view e e', Q view (.error e) → Q view (.error e')) :
    StaysDry now ttl_secs Q view (context text p) :=
  FollowsTo.bind hp fun view r h => by
    cases r with
    | ok a => exact h
    | error e => exact herror view e _ h

/-- The operation changes nothing, and leaves the stage and the pending weight as they are. -/
def Eff.Passive (e : Eff) : Prop :=
  e.mutates = false ∧ ∀ (view : DryView) (r : e.Reply) (now ttl_secs : ℕ),
    view.step now ttl_secs ⟨e, r⟩ = (view.stage, view.pending)

theorem staysDry_of_passive {α : Type} {stage : Stage} {p : Daemon α} (hp : p.Always Eff.Passive)
    (h : view.At stage) : StaysDry now ttl_secs (fun view _ => view.At stage) view p := by
  refine FollowsTo.of_always h (hp.mono fun e he view hview => ⟨fun _ => he.1, fun r => ?_⟩)
  exact at_after hview fun view hs hn => by rw [he.2, hs, hn]

theorem readLeases_passive {cache : OwnerCache} : (readLeases cache).Always Eff.Passive := by
  refine Always.andThen (Always.context ⟨⟨rfl, fun _ _ _ _ => rfl⟩, fun _ => trivial⟩) fun raw => ?_
  refine Always.bind (Always.foldEach (fun acc entry _ => ?_) _) fun _ => trivial
  exact ⟨⟨rfl, fun _ _ _ _ => rfl⟩, fun _ => trivial⟩

/-- A loop over weight files whose body keeps the stage. -/
theorem forWeightFiles_staysDry {stage : Stage} {failure : Option String}
    {body : String → String → Daemon (Except String Unit)} (names : List String)
    (hbody : ∀ name ip_str view, view.At stage →
      StaysDry now ttl_secs (fun view _ => view.At stage) view (body name ip_str))
    (h : view.At stage) :
    StaysDry now ttl_secs (fun view _ => view.At stage) view
      (forWeightFiles failure body names) := by
  induction names generalizing view with
  | nil => cases failure <;> exact h
  | cons name names ih =>
    rw [forWeightFiles]
    split
    · exact ih h
    · exact StaysDry.andThen (hbody _ _ view h) (fun view _ h => ih h) fun _ _ h => h

theorem restoreFile_staysDry {name ip_str : String} (h : view.At .restored) :
    StaysDry now ttl_secs (fun view _ => view.At .restored) view (restoreFile name ip_str) := by
  refine ⟨fun _ => rfl, fun val => ?_⟩
  rcases val with e | _ | val
  · exact at_after h fun view hs _ => by simp [DryView.step, hs, Except.toOption]
  · exact at_after h fun view hs _ => by simp [DryView.step, hs, Except.toOption]
  · -- A persisted weight that is found makes the startup write.
    refine staysDry_of_loud (Bool.eq_false_iff.mpr fun hquiet => ?_) fun view _ hloud hquiet => ?_
    · obtain ⟨hq, hfound⟩ := quiet_of_after hquiet
      simp [DryView.Quiet, (h hq).1, Except.toOption] at hfound
    · simp [hloud] at hquiet

theorem syncFile_staysDry {name ip_str : String} (h : view.At .looping) :
    StaysDry now ttl_secs (fun view _ => view.At .looping) view (syncFile name ip_str) := by
  refine ⟨fun _ => rfl, fun val => ?_⟩
  rcases val with e | _ | val
  · exact at_after h fun view hs _ => by simp [DryView.step, hs, Except.toOption]
  · exact at_after h fun view hs _ => by simp [DryView.step, hs, Except.toOption]
  · refine ⟨fun _ => rfl, fun disk => followsTo_ite.mpr ⟨fun _ => ?_, fun hdiff => ?_⟩⟩
    · intro hquiet
      obtain ⟨hq, -⟩ := quiet_of_after (quiet_of_after hquiet).1
      exact ⟨(h hq).1, rfl⟩
    · refine staysDry_of_loud (Bool.eq_false_iff.mpr fun hquiet => ?_) fun view _ hloud hquiet => ?_
      · obtain ⟨hq, hsame⟩ := quiet_of_after hquiet
        have hstage := (h (quiet_of_after hq).1).1
        simp [DryView.Quiet, DryView.after, DryView.step, hstage, Except.toOption] at hsame
        exact hdiff (of_decide_eq_true hsame)
      · simp [hloud] at hquiet

theorem computeFiles_staysDry {failure : Option String} {live_ips : List Ipv4Addr}
    {names : List String} (hnames : ∀ name ∈ names, weightIp name = none) (h : view.At .looping) :
    StaysDry now ttl_secs (fun view _ => view.At .looping) view
      (forWeightFiles failure (computeFile live_ips) names) := by
  induction names generalizing view with
  | nil => cases failure <;> exact h
  | cons name names ih =>
    have hrest := fun name' hname' => hnames name' (List.mem_cons_of_mem name hname')
    rw [forWeightFiles]
    split
    · exact ih hrest h
    · next ip_str hip =>
      have hparse : Ipv4Addr.parse ip_str.toList = none := by
        simpa [weightIp, hip] using hnames name List.mem_cons_self
      rw [computeFile, hparse]
      exact ih hrest h

theorem DryView.Ready.of_loud (h : view.quiet = false) : view.Ready :=
  fun hquiet => by simp [h] at hquiet

theorem initWeights_staysDry {net : SlotNetwork} {lease_clock : ℕ → ℕ} (h : view.At .starting) :
    StaysDry now ttl_secs (fun view _ => view.Ready) view
      (initWeights net now lease_clock ttl_secs) := by
  refine ⟨fun _ => rfl, fun ts => followsTo_ite.mpr ⟨fun hfresh => ?_, fun hstale => ?_⟩⟩
  · have hat : (view.after now ttl_secs ⟨.redis (.get .backendWeightsTs), ts⟩).At .restoring := by
      refine at_after h fun view _ hn => ?_
      rw [DryView.step, hn]
      cases ts <;> simp_all [Except.toOption]
    refine StaysDry.andThen (Q := fun view _ => view.At .restored) ⟨fun _ => rfl, fun r => ?_⟩
      (fun view dir hview => ?_) fun _ _ h => h.ready trivial
    · exact at_after hat fun view hs _ => by simp [DryView.step, hs, DryView.listed]
    · exact (forWeightFiles_staysDry dir.names (fun _ _ _ => restoreFile_staysDry) hview).mono
        fun _ _ h => h.ready trivial
  · have hat : (view.after now ttl_secs ⟨.redis (.get .backendWeightsTs), ts⟩).At .computing := by
      refine at_after h fun view _ hn => ?_
      rw [DryView.step, hn]
      cases ts <;> simp_all [Except.toOption]
    refine FollowsTo.bind (staysDry_of_passive readLeases_passive hat) fun view leases hat => ?_
    have hlisted : ∀ r, (view.after now ttl_secs ⟨.readDir, r⟩).At .looping :=
      fun r => at_after hat fun view hs _ => by simp [DryView.step, hs, DryView.listed]
    refine ⟨fun _ => rfl, fun r => ?_⟩
    cases r with
    | error e => exact (hlisted (.error e)).ready trivial
    | ok dir =>
      by_cases hquiet : (view.after now ttl_secs ⟨.readDir, .ok dir⟩).quiet = true
      · -- No file of the listing stands for an address.
        obtain ⟨hq, hnone⟩ := quiet_of_after hquiet
        refine (computeFiles_staysDry (fun name hname => ?_) (hlisted (.ok dir))).mono
          fun _ _ h => h.ready trivial
        simp only [DryView.Quiet, (hat hq).1, ne_eq, not_true_eq_false, decide_false, Bool.false_or,
          Bool.and_eq_true, List.all_eq_true, Option.isNone_iff_eq_none] at hnone
        exact hnone.1 name hname
      · exact staysDry_of_loud (Bool.eq_false_iff.mpr hquiet) fun _ _ => .of_loud

theorem syncFromRedis_staysDry (h : view.At .looping) :
    StaysDry now ttl_secs (fun view _ => view.At .looping) view syncFromRedis := by
  refine StaysDry.andThen (Q := fun view _ => view.At .looping)
    (StaysDry.context ⟨fun _ => rfl, fun r => ?_⟩ fun _ _ _ h => h)
    (fun view dir h => forWeightFiles_staysDry dir.names (fun _ _ _ => syncFile_staysDry) h)
    fun _ _ h => h
  exact at_after h fun view hs _ => by simp [DryView.step, hs, DryView.listed]

theorem collect_staysDry {net : SlotNetwork} {cache : OwnerCache} (h : view.Ready) :
    StaysDry now ttl_secs (fun view r => match r.1 with
      | .ok _ => view.At .collected
      | .error _ => view.At .looping) view (collect net cache) := by
  have hfile : ∀ {view : DryView} {name r}, view.At .looping →
      (view.after now ttl_secs ⟨.readFile name, r⟩).At .looping :=
    fun hview => at_after hview fun view hs _ => by simp [DryView.step, hs]
  have hfiles : ∀ failure names entries (view : DryView), view.At .looping →
      StaysDry now ttl_secs (fun view _ => view.At .looping) view
        (readWeightFiles failure names entries) := fun failure names entries view hview =>
    FollowsTo.of_always hview (readWeightFiles_always.mono fun e he view hview => by
      obtain ⟨name, rfl⟩ := he
      exact ⟨fun _ => rfl, fun r => hfile hview⟩)
  have hweights : StaysDry now ttl_secs (fun view _ => view.At .looping) view readWeights := by
    refine StaysDry.andThen (Q := fun view _ => view.At .looping)
      (StaysDry.context ⟨fun _ => rfl, fun r hquiet => ?_⟩ fun _ _ _ h => h)
      (fun view dir hview => ?_)
      fun _ _ h => h
    · obtain ⟨hstage, -⟩ := h (quiet_of_after hquiet).1
      refine ⟨?_, rfl⟩
      show DryView.listed view.stage = .looping
      cases hs : view.stage <;> simp_all [Stage.Relists, DryView.listed]
    · exact StaysDry.andThen (hfiles _ _ _ view hview) (fun _ _ h => h) fun _ _ h => h
  refine FollowsTo.bind hweights fun view weights hview => ?_
  cases weights with
  | error e => exact hview
  | ok weights =>
    refine FollowsTo.bind (staysDry_of_passive readLeases_passive hview) fun view leases hview => ?_
    cases leases with
    | error e => exact hview
    | ok leases =>
      refine ⟨fun _ => rfl, fun groups => ⟨fun _ => rfl, fun content => ?_⟩⟩
      have hlooping : (view.after now ttl_secs ⟨.describeAsg, groups⟩).At .looping :=
        at_after hview fun view hs hn => by simp [DryView.step, hs, hn]
      exact at_after hlooping fun view _ _ => rfl

theorem cleanupRun_dry {snapshot : SystemSnapshot} {clock : PassClock}
    {is_master term_decrements_capacity : Bool} {state : CleanupState} {grace : ℕ}
    {P : Eff → Prop} :
    (cleanupRun snapshot clock true is_master term_decrements_capacity state grace).Always P := by
  unfold cleanupRun
  split
  · trivial
  · refine Always.bind ?_ fun _ => Always.bind ?_ fun state => Always.bind ?_ fun _ => trivial
    · rw [section21_eq]
      split
      · refine Always.forEach fun l _ => Always.bind ?_ fun _ => trivial
        rw [handleLease_eq]
        rcases leaseAction snapshot clock l with _ | (_ | ip) | ip | ip <;> trivial
      · trivial
    · refine Always.bind (Always.foldEach (fun acc inst _ => ?_) _) fun _ => trivial
      unfold visitInstance
      dsimp only
      split
      · trivial
      · split
        · trivial
        · split <;> trivial
    · rw [section23_eq]
      refine Always.forEach fun b _ => ?_
      split <;> trivial

theorem persistFile_staysDry {name ip_str : String} (h : view.At .persisting) :
    StaysDry now ttl_secs (fun view _ => view.At .persisting) view (persistFile name ip_str) := by
  refine ⟨fun _ => rfl, fun content => ?_⟩
  cases content with
  | error e => exact at_after h fun view hs _ => by simp [DryView.step, hs]
  | ok content =>
    refine staysDry_of_loud (Bool.eq_false_iff.mpr fun hquiet => ?_) fun view _ hloud hquiet => ?_
    · obtain ⟨hq, hunread⟩ := quiet_of_after hquiet
      simp [DryView.Quiet, (h hq).1, Except.isOk, Except.toBool] at hunread
    · simp [hloud] at hquiet

theorem forWeightFiles_returns {body : String → String → Daemon (Except String Unit)} {e : String}
    (names : List String) :
    (forWeightFiles (some e) body names).Returns fun r => r ≠ .ok () := by
  induction names with
  | nil => exact fun h => by cases h
  | cons name names ih =>
    rw [forWeightFiles]
    split
    · exact ih
    · refine Returns.bind (returns_true _) fun r _ => ?_
      cases r with
      | ok a => exact ih
      | error e => exact fun h => by cases h

/-- On a dry run the master persists nothing when it cannot list the files to the end and reads
none. -/
theorem persist_staysDry {persisted : ℕ} (h : view.At .collected) :
    StaysDry now ttl_secs (fun view _ => view.Ready) view (persist persisted) := by
  refine StaysDry.andThen (Q := fun view r => view.At .persisting ∧
      ∀ dir, r = .ok dir → view.quiet = true → dir.failure.isSome) (StaysDry.context
      ⟨fun _ => rfl, fun r => ?_⟩ fun _ _ _ h => ⟨h.1, fun _ h => by cases h⟩)
    (fun view dir hview => ?_) fun _ _ h => h.1.ready trivial
  · refine ⟨at_after h fun view hs _ => by simp [DryView.step, hs, DryView.listed], ?_⟩
    rintro dir rfl hquiet
    obtain ⟨hq, hfailure⟩ := quiet_of_after hquiet
    simpa [DryView.Quiet, (h hq).1] using hfailure
  · obtain ⟨hat, hfailure⟩ := hview
    by_cases hquiet : view.quiet = true
    · obtain ⟨e, he⟩ := Option.isSome_iff_exists.mp (hfailure dir rfl hquiet)
      refine StaysDry.andThen (Q := fun view r => view.At .persisting ∧ r ≠ .ok ()) ?_
        (fun _ _ h => absurd rfl h.2) fun _ _ h => h.1.ready trivial
      rw [he]
      exact FollowsTo.and_returns (forWeightFiles_staysDry dir.names
        (fun _ _ _ => persistFile_staysDry) hat) (forWeightFiles_returns dir.names)
    · exact staysDry_of_loud (Bool.eq_false_iff.mpr hquiet) fun _ _ => .of_loud

variable [Scalar F]

theorem scalerRun_passive {snapshot : SystemSnapshot} {config : ScaleConfig F}
    {state : ScalerState F} {clock : ScalerClock} :
    (scalerRun snapshot config state clock true).Always Eff.Passive :=
  scalerRun_dry.mono fun e he => by
    subst he
    exact ⟨rfl, fun _ _ _ _ => rfl⟩

/-- A cycle may start: the task is ready, or it reads its role first. -/
def DryView.AtEnd (cfg : DaemonConfig F) (view : DryView) : Prop :=
  view.quiet = true → (view.stage.Relists ∨ cfg.vip_inside.isSome) ∧ view.pending = none

omit [Scalar F] in
theorem DryView.Ready.atEnd {cfg : DaemonConfig F} (h : view.Ready) : view.AtEnd cfg :=
  fun hquiet => ⟨.inl (h hquiet).1, (h hquiet).2⟩

theorem cycleAs_staysDry {cfg : DaemonConfig F} {is_master : Bool} {clock : CycleClock}
    {state : DaemonState F} (hdry : cfg.dry_run = true) (h : view.Ready)
    (hbackup : is_master = false → view.At .looping ∧ cfg.vip_inside.isSome) :
    StaysDry now ttl_secs (fun view _ => view.AtEnd cfg) view
      (cycleAs cfg is_master clock state) := by
  have hcollect : ∀ (view : DryView) (k : Except String SystemSnapshot × OwnerCache →
    Daemon (DaemonState F)),
      view.Ready →
      (∀ view snapshot cache, view.At .collected →
        StaysDry now ttl_secs (fun view _ => view.AtEnd cfg) view (k (.ok snapshot, cache))) →
      (∀ view e cache, view.At .looping →
        StaysDry now ttl_secs (fun view _ => view.AtEnd cfg) view (k (.error e, cache))) →
      StaysDry now ttl_secs (fun view _ => view.AtEnd cfg) view
        (collect cfg.net state.owner_cache >>= k) := by
    intro view k hready hok herror
    refine FollowsTo.bind (collect_staysDry hready) fun view r hview => ?_
    obtain ⟨snapshot | snapshot, cache⟩ := r
    · exact herror view snapshot cache hview
    · exact hok view snapshot cache hview
  unfold cycleAs
  rw [hdry]
  cases is_master with
  | false =>
    obtain ⟨hat, hvip⟩ := hbackup rfl
    refine FollowsTo.bind (syncFromRedis_staysDry hat) fun view _ hat => ?_
    refine hcollect view _ (hat.ready trivial) (fun view snapshot cache hview => ?_)
      fun view e cache hview => (hview.ready trivial).atEnd
    refine FollowsTo.bind (staysDry_of_passive cleanupRun_dry hview) fun view _ hview => ?_
    exact fun hquiet => ⟨.inr hvip, (hview hquiet).2⟩
  | true =>
    refine hcollect view _ h (fun view snapshot cache hview => ?_)
      fun view e cache hview => (hview.ready trivial).atEnd
    refine FollowsTo.bind (staysDry_of_passive cleanupRun_dry hview) fun view cleanup hview => ?_
    refine FollowsTo.bind (persist_staysDry hview) fun view _ hview => ?_
    refine FollowsTo.bind (FollowsTo.of_always (I := DryView.Ready) hview ?_)
      fun view _ hview => hview.atEnd
    refine scalerRun_passive.mono fun e he view hview => ⟨fun _ => he.1, fun r hquiet => ?_⟩
    obtain ⟨hstage, hpending⟩ := hview (quiet_of_after hquiet).1
    exact ⟨by rw [DryView.after, he.2]; exact hstage, by rw [DryView.after, he.2]; exact hpending⟩

theorem refreshLoop_staysDry {cfg : DaemonConfig F} (hdry : cfg.dry_run = true)
    (clocks : List CycleClock) (state : DaemonState F) (h : view.AtEnd cfg) :
    StaysDry now ttl_secs (fun _ _ => True) view (refreshLoop cfg clocks state) := by
  induction clocks generalizing state view with
  | nil => exact True.intro
  | cons clock clocks ih =>
    have hcycle : ∀ (is_master : Bool) (view : DryView), view.Ready →
        (is_master = false → view.At .looping ∧ cfg.vip_inside.isSome) →
        StaysDry now ttl_secs (fun _ _ => True) view
          (cycleAs cfg is_master clock state >>= refreshLoop cfg clocks) :=
      fun is_master view hready hbackup =>
        FollowsTo.bind (cycleAs_staysDry hdry hready hbackup) fun view state h => ih state h
    unfold refreshLoop readRole
    cases hvip : cfg.vip_inside with
    | none =>
      have hready : view.Ready := fun hquiet =>
        ⟨(h hquiet).1.resolve_right (by simp [hvip]), (h hquiet).2⟩
      exact hcycle true view hready fun hbackup => by cases hbackup
    | some vip =>
      refine ⟨fun _ => rfl, fun output => ?_⟩
      have hat : (view.after now ttl_secs ⟨.ipAddrShow, output⟩).At .looping := fun _ => ⟨rfl, rfl⟩
      exact hcycle _ _ (hat.ready trivial) fun _ => ⟨hat, by simp [hvip]⟩

omit [Scalar F] in
theorem listenerTask_dry {cfg : DaemonConfig F} (hdry : cfg.dry_run = true) (rounds : ℕ)
    (subscribed : Bool) : (listenerTask cfg rounds subscribed).Always (·.mutates = false) := by
  have hmessage : ∀ msg, (handleMessage cfg msg).Always (·.mutates = false) := by
    intro msg
    unfold handleMessage
    rw [hdry]
    dsimp only
    split
    · trivial
    · split
      · cases msg.instance_id <;> trivial
      · trivial
  induction rounds generalizing subscribed with
  | zero => trivial
  | succ rounds ih =>
    cases subscribed with
    | false =>
      refine ⟨rfl, fun r => ?_⟩
      cases r with
      | ok a => exact ih true
      | error e => exact ih false
    | true =>
      refine ⟨rfl, fun r => ?_⟩
      rcases r with _ | e | msg
      · exact ih false
      · exact ih true
      · show Always _ (handleMessage cfg msg >>= fun _ => listenerTask cfg rounds true)
        exact Always.bind (hmessage msg) fun _ => ih true

theorem task_dryAllows (nodes : N → NodeSetup F) (who : N × Task) :
    Follows (DryAllows nodes who) (dryAfter nodes who) .start ((nodes who.1).task who.2) := by
  by_cases hdry : (nodes who.1).cfg.dry_run = true
  · obtain ⟨n, task⟩ := who
    cases task with
    | listener =>
      have hlistener := listenerTask_dry hdry (nodes n).rounds false
      refine (FollowsTo.of_always (I := fun _ => True) True.intro ?_).toFollows
      exact hlistener.mono fun e he view _ => ⟨fun _ => he, fun _ => True.intro⟩
    | main =>
      have hmain : StaysDry (nodes n).start.init (nodes n).cfg.weight_state_ttl
        (fun _ _ => True) .start
          ((nodes n).task .main) :=
        FollowsTo.bind (initWeights_staysDry fun _ => ⟨rfl, rfl⟩) fun view _ hview =>
          refreshLoop_staysDry hdry _ _ hview.atEnd
      exact hmain.toFollows.mono fun view e hallows _ => hallows
  · exact follows_of_forall fun view e hdry' => absurd hdry' hdry

variable [DecidableEq N] {nodes : N → NodeSetup F}

omit [Scalar F] in
theorem quiet_of_cons {st : DaemonStep N} {hist : List (DaemonStep N)} {who : N × Task}
    (h : (dryViews nodes (st :: hist) who).quiet = true) :
      (dryViews nodes hist who).quiet = true := by
  unfold dryViews at h
  rw [protocolState] at h
  split at h
  · unfold dryAfter at h
    split at h
    · exact (quiet_of_after h).1
    · exact h
  · exact h

/-- In a run of any number of nodes, a node on a dry run changes nothing when all replies to its
main task are quiet. -/
theorem dryRun_readOnly (nodes : N → NodeSetup F) (replies : Replies N)
    {hist : List (DaemonStep N)} {threads : N × Task → Daemon Unit} {start now : ℕ}
    (run : Interleaved replies.handler (fun who => (nodes who.1).task who.2) start hist threads now)
    {n : N} (hdry : (nodes n).cfg.dry_run = true)
    (hquiet : (dryViews nodes hist (n, .main)).quiet = true) :
    ∀ st ∈ hist, st.who.1 = n → st.event.op.mutates = false := by
  induction run with
  | start => exact List.forall_mem_nil _
  | @step hist threads now run who e k hwho ih =>
    have hquiet' := quiet_of_cons hquiet
    refine List.forall_mem_cons.mpr ⟨fun hnode => ?_, ih hquiet'⟩
    obtain ⟨node, task⟩ := who
    obtain rfl : node = n := hnode
    have hfollows : Follows (DryAllows nodes (node, task)) (dryAfter nodes (node, task))
        (dryViews nodes hist (node, task)) (threads (node, task)) :=
      run.follows (task_dryAllows nodes) (node, task)
    rw [hwho] at hfollows
    have hallows := hfollows.1 hdry
    cases task with
    | main => exact hallows hquiet'
    | listener => exact hallows

end Follows

section Example

/-- A node on a dry run. -/
def dryNode : NodeSetup ℚ :=
  { exampleNode 1 with cfg := { (exampleNode 1).cfg with dry_run := true } }

/-- The weight file of slot 0 can be listed when it is `shown`, and nothing is persisted. -/
def dryReplies (shown : ℕ → Bool) : Replies Unit
  | now, _, .readDir =>
    if shown now then .ok ⟨["backend-10.0.0.20.weight"], none⟩ else .error "Input/output error"
  | _, _, .readFile _ => .ok "0"
  | _, _, .ipAddrShow => some "inet 10.0.0.1/24"
  | _, _, e => okReply e

/-- The startup and a cycle of the main task. -/
def dryTurns : List (Unit × Task) := List.replicate 12 ((), .main)

/-- What the node on a dry run does. -/
def dryPlay : List (DaemonStep Unit) :=
  (play (dryReplies (· == 4)).handler (fun who => dryNode.task who.2) 0 dryTurns).1

/-- The file is listed for the snapshot only, and the backend without lease stays active. -/
theorem dryRun_of_snapshot :
    (dryPlay.map fun st => st.event.op).contains (.readFile "backend-10.0.0.20.weight") ∧
      ∀ st ∈ dryPlay, st.event.op.mutates = false := by
  refine ⟨by decide +kernel, fun st hst => ?_⟩
  have run := interleaved_play (dryReplies (· == 4)).handler
    (fun who => dryNode.task who.2) 0 dryTurns
  have hquiet : (dryViews (fun _ => dryNode) dryPlay ((), .main)).quiet = true := by decide +kernel
  exact dryRun_readOnly (fun _ => dryNode) (dryReplies (· == 4)) run rfl hquiet st hst rfl

/-- The startup writes the weight file on a dry run. -/
theorem dryRun_writes : ¬ ∀ (nodes : Unit → NodeSetup ℚ) (replies : Replies Unit),
    (∀ n, (nodes n).cfg.dry_run = true) → ∀ hist threads now,
      Interleaved replies.handler (fun who => (nodes who.1).task who.2) 0 hist threads now →
        ∀ st ∈ hist, st.event.op.mutates = false := by
  intro h
  have hclean := h (fun _ => dryNode) (dryReplies fun _ => true) (fun _ => rfl) _ _ _
    (interleaved_play _ _ 0 dryTurns)
  exact absurd hclean (by decide +kernel)

end Example

end Aerosuite.Scale
