import Aerosuite.Scale.World

/-! The roles of the nodes.  On each node the main task and the listener run side by side.  The main
task reads the role once for a cycle, and the listener never looks at it. -/

namespace Aerosuite.Scale

open Pool Program

variable {F N : Type}

/-- What `readRole` returns for an output of `ip addr show`. -/
def DaemonConfig.isMaster (cfg : DaemonConfig F) (output : Option String) : Bool :=
  cfg.vip_inside.all fun vip => holdsVip vip output

/-- The operations of a run take one unit of time each. -/
def Replies.handler (replies : Replies N) (who : N × Task) (e : Eff) (now : ℕ) : e.Reply × ℕ :=
  (replies now who.1 e, now + 1)

abbrev DaemonStep (N : Type) := Step (N × Task) Eff Eff.Reply ℕ

/-- The node of a step is master when the step is taken. -/
def ByMaster (nodes : N → NodeSetup F) (replies : Replies N) (st : DaemonStep N) : Prop :=
  (nodes st.who.1).cfg.isMaster (replies st.before st.who.1 .ipAddrShow) = true

/-- The operations from which a task learns its role or its message. -/
def Eff.observes : Eff → Bool
  | .ipAddrShow | .nextMessage => true
  | _ => false

/-- Every operation of a run that is for the master only was performed by a master. -/
def OnlyMasterActs (nodes : N → NodeSetup F) (replies : Replies N) (hist : List (DaemonStep N)) :
    Prop :=
  ∀ st ∈ hist, st.event.op.acts = true → ByMaster nodes replies st

/-- What a task goes by: the role that it read last, and whether its last message asks it to
terminate an instance. -/
structure RoleView where
  is_master : Bool
  releasing : Bool

/-- A message that asks to terminate an instance. -/
def asksTermination : Option (Except String AsgChangeMsg) → Bool
  | some (.ok msg) => msg.action = "release" && msg.instance_id.isSome
  | _ => false

def RoleView.after (cfg : DaemonConfig F) (view : RoleView) : Event Eff Eff.Reply → RoleView
  | ⟨.ipAddrShow, output⟩ => { view with is_master := cfg.isMaster output }
  | ⟨.nextMessage, msg⟩ => { view with releasing := asksTermination msg }
  | _ => view

/-- The task runs a cycle as the master or handles a message that asks to terminate an instance. -/
def RoleView.Engaged (view : RoleView) : Prop := view.is_master = true ∨ view.releasing = true

instance (view : RoleView) : Decidable view.Engaged := inferInstanceAs (Decidable (_ ∨ _))

/-- A node whose inside address is not known is master from the start. -/
def NodeSetup.view₀ (node : NodeSetup F) : RoleView := ⟨node.cfg.vip_inside.isNone, false⟩

section Views

variable [DecidableEq N] (nodes : N → NodeSetup F) (replies : Replies N)

/-- What each task goes by after a history. -/
def views (hist : List (DaemonStep N)) (who : N × Task) : RoleView :=
  protocolState (fun who => RoleView.after (nodes who.1).cfg)
    (fun who => (nodes who.1).view₀) hist who

/-- A node that acts stays master while a task of it runs a cycle as the master or handles a message
that asks to terminate an instance. -/
def StaysMaster : List (DaemonStep N) → Prop
  | [] => True
  | st :: hist =>
    StaysMaster hist ∧
      ((nodes st.who.1).cfg.dry_run = false → st.event.op.observes = false →
        (views nodes hist st.who).Engaged → ByMaster nodes replies st)

instance decidableByMaster (st : DaemonStep N) : Decidable (ByMaster nodes replies st) :=
  inferInstanceAs (Decidable (_ = _))

instance decidableStaysMaster : (hist : List (DaemonStep N)) →
    Decidable (StaysMaster nodes replies hist)
  | [] => isTrue trivial
  | _ :: hist => @instDecidableAnd _ _ (decidableStaysMaster hist) inferInstance

end Views

section Cycle

/-- The operation acts only under a condition, and learns neither a role nor a message. -/
def Within (P : Prop) (e : Eff) : Prop := (e.acts = true → P) ∧ e.observes = false

variable {P : Prop}

theorem Within.mono {Q : Prop} (h : P → Q) {e : Eff} (he : Within P e) : Within Q e :=
  ⟨fun hacts => h (he.1 hacts), he.2⟩

theorem Within.of_not {e : Eff} (hacts : e.acts = false) (hobs : e.observes = false) : Within P e :=
  ⟨fun h => by simp [hacts] at h, hobs⟩

theorem eff_within {e : Eff} (hacts : e.acts = false) (hobs : e.observes = false) :
    (eff e).Always (Within P) :=
  ⟨.of_not hacts hobs, fun _ => trivial⟩

theorem writeWeight_within {ip : Ipv4Addr} {value : String} {dry_run : Bool} :
    (writeWeight ip value dry_run).Always (Within P) := by
  unfold writeWeight
  split
  · trivial
  · exact Always.context (eff_within rfl rfl)

theorem terminateInstance_within {id : String} {dry_run decrement : Bool} :
    (terminateInstance id dry_run decrement).Always (Within (dry_run = false)) := by
  unfold terminateInstance
  split
  · trivial
  · next h => exact ⟨⟨fun _ => by simpa using h, rfl⟩, fun _ => trivial⟩

theorem releaseSlot_within {slot now : ℕ} {owner : String} {dry_run : Bool} :
    (releaseSlot slot owner now dry_run).Always (Within (dry_run = false)) := by
  unfold releaseSlot
  split
  · trivial
  · next h =>
    have hwrite : ∀ c : Cmd ℕ, Within (dry_run = false) (.redis c) :=
      fun c => ⟨fun _ => by simpa using h, rfl⟩
    refine Always.andThen (Always.context ⟨hwrite _, fun _ => trivial⟩) fun _ => ?_
    refine Always.andThen (Always.context ⟨hwrite _, fun _ => trivial⟩) fun _ => ?_
    exact Always.context ⟨hwrite _, fun _ => trivial⟩

variable {snapshot : SystemSnapshot} {clock : PassClock} {dry_run term_decrements_capacity : Bool}
  {grace : ℕ}

theorem perform_within {lease : SlotLease} (action : LeaseAction) :
    (action.perform clock dry_run term_decrements_capacity lease).Always
      (Within (dry_run = false)) := by
  cases action with
  | skip => trivial
  | release backend =>
    refine Always.andThen releaseSlot_within fun _ => ?_
    cases backend with
    | none => trivial
    | some ip => exact writeWeight_within
  | retire ip => exact Always.andThen writeWeight_within fun _ => terminateInstance_within
  | enable ip => exact writeWeight_within

theorem section21_within : (section21 snapshot clock dry_run term_decrements_capacity).Always
    (Within (dry_run = false)) := by
  rw [section21_eq]
  split
  · refine Always.forEach fun lease _ => Always.bind ?_ fun _ => trivial
    rw [handleLease_eq]
    exact perform_within _
  · trivial

theorem section22_within {state : CleanupState} :
    (section22 snapshot state clock dry_run grace).Always (Within (dry_run = false)) := by
  refine Always.bind (Always.foldEach (fun acc inst _ => ?_) _) fun _ => trivial
  unfold visitInstance
  dsimp only
  split
  · trivial
  · split
    · trivial
    · split
      · trivial
      · exact Always.bind terminateInstance_within fun _ => trivial

theorem section23_within : (section23 snapshot dry_run).Always (Within P) := by
  refine Always.forEach fun b _ => ?_
  split
  · trivial
  · split
    · exact Always.bind writeWeight_within fun _ => trivial
    · exact Always.bind writeWeight_within fun _ => trivial
    · trivial
    · trivial

theorem cleanupRun_within {is_master : Bool} {state : CleanupState} :
    (cleanupRun snapshot clock dry_run is_master term_decrements_capacity state grace).Always
      (Within (is_master = true ∧ dry_run = false)) := by
  unfold cleanupRun
  split
  · trivial
  · next h =>
    have hmaster : is_master = true := by simpa using h
    refine Always.bind (section21_within.mono fun _ => Within.mono fun hd =>
      ⟨hmaster, hd⟩) fun _ => ?_
    refine Always.bind (section22_within.mono fun _ => Within.mono fun hd =>
      ⟨hmaster, hd⟩) fun _ => ?_
    exact Always.bind section23_within fun _ => trivial

theorem forWeightFiles_within {failure : Option String}
    {body : String → String → Daemon (Except String Unit)}
    (hbody : ∀ name ip_str, (body name ip_str).Always (Within P)) (names : List String) :
    (forWeightFiles failure body names).Always (Within P) := by
  induction names with
  | nil => cases failure <;> trivial
  | cons name names ih =>
    rw [forWeightFiles]
    split
    · exact ih
    · exact Always.andThen (hbody _ _) fun _ => ih

theorem persist_within {now : ℕ} : (persist now).Always (Within P) := by
  refine Always.andThen (Always.context (eff_within rfl rfl)) fun dir => ?_
  refine Always.andThen (forWeightFiles_within (fun name ip_str => ?_) _) fun _ => ?_
  · refine ⟨.of_not rfl rfl, fun content => ?_⟩
    cases content with
    | ok content => exact Always.context (eff_within rfl rfl)
    | error e => trivial
  · exact Always.context (eff_within rfl rfl)

theorem syncFromRedis_within : syncFromRedis.Always (Within P) := by
  refine Always.andThen (Always.context (eff_within rfl rfl)) fun dir => ?_
  refine forWeightFiles_within (fun name ip_str => ?_) _
  simp only [syncFile, perform_bind, always_call]
  refine ⟨.of_not rfl rfl, fun val => ?_⟩
  rcases val with e | _ | val
  · trivial
  · trivial
  · simp only [always_call, always_ite]
    refine ⟨.of_not rfl rfl, fun disk => ⟨fun _ => ?_, fun _ => ?_⟩⟩
    · exact True.intro
    · exact Always.context (eff_within rfl rfl)

theorem restoreFromRedis_within : restoreFromRedis.Always (Within P) := by
  refine Always.andThen (eff_within rfl rfl) fun dir => ?_
  refine forWeightFiles_within (fun name ip_str => ?_) _
  refine ⟨.of_not rfl rfl, fun val => ?_⟩
  rcases val with e | _ | val
  · trivial
  · trivial
  · exact Always.context (eff_within rfl rfl)

theorem readLeases_within {cache : OwnerCache} : (readLeases cache).Always (Within P) := by
  refine Always.andThen (Always.context (eff_within rfl rfl)) fun raw => ?_
  refine Always.bind (Always.foldEach (fun acc entry _ => ?_) _) fun _ => trivial
  exact Always.bind (eff_within rfl rfl) fun _ => trivial

theorem computeFromLeases_within {net : SlotNetwork} {lease_clock : ℕ → ℕ} :
    (computeFromLeases net lease_clock).Always (Within P) := by
  refine Always.bind readLeases_within fun leases => ?_
  refine Always.andThen (eff_within rfl rfl) fun dir => ?_
  refine forWeightFiles_within (fun name ip_str => ?_) _
  unfold computeFile
  split
  · trivial
  · exact Always.context (eff_within rfl rfl)

theorem initWeights_within {net : SlotNetwork} {now ttl : ℕ} {lease_clock : ℕ → ℕ} :
    (initWeights net now lease_clock ttl).Always (Within P) := by
  refine ⟨.of_not rfl rfl, fun ts => always_ite.mpr ⟨fun _ => ?_, fun _ => ?_⟩⟩
  · exact restoreFromRedis_within
  · exact computeFromLeases_within

theorem collect_within {net : SlotNetwork} {cache : OwnerCache} :
    (collect net cache).Always (Within P) := by
  refine Always.bind (readWeights_always.mono fun e he => ?_) fun weights => ?_
  · rcases he with rfl | ⟨name, rfl⟩ <;> exact .of_not rfl rfl
  · cases weights with
    | error e => trivial
    | ok weights =>
      refine Always.bind readLeases_within fun leases => ?_
      cases leases with
      | error e => trivial
      | ok leases => exact ⟨.of_not rfl rfl, fun _ => ⟨.of_not rfl rfl, fun _ => trivial⟩⟩

variable [Scalar F]

theorem scalerRun_within {config : ScaleConfig F} {state : ScalerState F} {clock : ScalerClock} :
    (scalerRun snapshot config state clock dry_run).Always (Within (dry_run = false)) := by
  unfold scalerRun
  dsimp only
  split
  · trivial
  · refine Always.bind (evaluateScaleUp_always.mono fun e he => ?_) fun state => ?_
    · rcases he with rfl | ⟨hdry, n, rfl⟩
      · exact .of_not rfl rfl
      · exact ⟨fun _ => hdry, rfl⟩
    · unfold evaluateDrain
      dsimp only
      split
      · trivial
      · refine Always.bind writeWeight_within fun r => ?_
        cases r <;> trivial

theorem cycleAs_within {cfg : DaemonConfig F} {is_master : Bool} {clock : CycleClock}
    {state : DaemonState F} : (cycleAs cfg is_master clock state).Always
      (Within (is_master = true ∧ cfg.dry_run = false)) := by
  have hcollect : ∀ k : Except String SystemSnapshot × OwnerCache → Daemon (DaemonState F),
      (∀ r, (k r).Always (Within (is_master = true ∧ cfg.dry_run = false))) →
        (collect cfg.net state.owner_cache >>= k).Always
          (Within (is_master = true ∧ cfg.dry_run = false)) :=
    fun k hk => Always.bind collect_within hk
  cases is_master with
  | false =>
    refine Always.bind syncFromRedis_within fun _ => hcollect _ fun r => ?_
    obtain ⟨snapshot | snapshot, cache⟩ := r
    · trivial
    · exact Always.bind cleanupRun_within fun _ => trivial
  | true =>
    refine hcollect _ fun r => ?_
    obtain ⟨snapshot | snapshot, cache⟩ := r
    · trivial
    · refine Always.bind cleanupRun_within fun cleanup => ?_
      refine Always.bind persist_within fun _ => Always.bind ?_ fun _ => trivial
      exact scalerRun_within.mono fun _ => Within.mono fun hd => ⟨rfl, hd⟩

end Cycle

section Follows

/-- A task acts only while it is engaged, on a node without dry run. -/
def RoleView.Allows (cfg : DaemonConfig F) (view : RoleView) (e : Eff) : Prop :=
  e.acts = true → view.Engaged ∧ cfg.dry_run = false

variable {cfg : DaemonConfig F} {view : RoleView}

theorem after_of_not_observes {e : Eff} (h : e.observes = false) (r : e.Reply) :
    view.after cfg ⟨e, r⟩ = view := by
  cases e <;> first | rfl | cases h

/-- A program that acts only under a condition that lets it act can be followed by another. -/
theorem follows_within {P : Prop} {α β : Type} {p : Daemon α} {f : α → Daemon β}
    (hp : p.Always (Within P)) (hP : P → view.Engaged ∧ cfg.dry_run = false)
    (hf : ∀ a, Follows (RoleView.Allows cfg) (RoleView.after cfg) view (f a)) :
    Follows (RoleView.Allows cfg) (RoleView.after cfg) view (p >>= f) :=
  Follows.bind (hp.mono fun _ he => ⟨fun hacts => hP (he.1 hacts), after_of_not_observes he.2⟩) hf

theorem handleMessage_within {msg : AsgChangeMsg} : (handleMessage cfg msg).Always
    (Within (asksTermination (some (.ok msg)) = true ∧ cfg.dry_run = false)) := by
  unfold handleMessage
  dsimp only
  split
  · exact Always.bind writeWeight_within fun _ => trivial
  · split
    · next hrelease =>
      refine Always.bind writeWeight_within fun _ => ?_
      cases hid : msg.instance_id with
      | none => trivial
      | some id =>
        have hasks : asksTermination (some (.ok msg)) = true := by
          simp [asksTermination, hrelease, hid]
        exact Always.bind (terminateInstance_within.mono fun _ => Within.mono fun hd => ⟨hasks, hd⟩)
          fun _ => trivial
    · trivial

theorem listenerTask_follows (rounds : ℕ) (subscribed : Bool) (view : RoleView) :
    Follows (RoleView.Allows cfg) (RoleView.after cfg) view
      (listenerTask cfg rounds subscribed) := by
  induction rounds generalizing subscribed view with
  | zero => trivial
  | succ rounds ih =>
    cases subscribed with
    | false =>
      refine ⟨nofun, fun r => ?_⟩
      cases r with
      | ok a => exact ih true view
      | error e => exact ih false view
    | true =>
      refine ⟨nofun, fun r => ?_⟩
      rcases r with _ | e | msg
      · exact ih false _
      · exact ih true _
      · show Follows _ _ _ (handleMessage cfg msg >>= fun _ => listenerTask cfg rounds true)
        exact follows_within handleMessage_within (fun h => ⟨.inr h.1, h.2⟩) fun _ => ih true _

variable [Scalar F]

theorem refreshLoop_follows (clocks : List CycleClock) (state : DaemonState F)
    (hview : cfg.vip_inside = none → view.is_master = true) :
    Follows (RoleView.Allows cfg) (RoleView.after cfg) view (refreshLoop cfg clocks state) := by
  induction clocks generalizing state view with
  | nil => trivial
  | cons clock clocks ih =>
    have hcycle : ∀ (is_master : Bool) (view : RoleView), view.is_master = is_master →
        (cfg.vip_inside = none → view.is_master = true) →
        Follows (RoleView.Allows cfg) (RoleView.after cfg) view
          (cycleAs cfg is_master clock state >>= refreshLoop cfg clocks) :=
      fun is_master view hrole hview => follows_within cycleAs_within
        (fun h => ⟨.inl (hrole.trans h.1), h.2⟩) fun state => ih state hview
    unfold refreshLoop readRole
    cases hvip : cfg.vip_inside with
    | none => exact hcycle true view (hview hvip) hview
    | some vip =>
      refine ⟨nofun, fun output => hcycle _ _ ?_ fun hnone => ?_⟩
      · simp [RoleView.after, DaemonConfig.isMaster, hvip]
      · rw [hvip] at hnone
        cases hnone

theorem task_follows (node : NodeSetup F) (task : Task) :
    Follows (RoleView.Allows node.cfg) (RoleView.after node.cfg) node.view₀ (node.task task) := by
  cases task with
  | listener => exact listenerTask_follows _ _ _
  | main =>
    refine follows_within (initWeights_within (P := False)) False.elim fun _ => ?_
    exact refreshLoop_follows _ _ fun hvip => by simp [NodeSetup.view₀, hvip]

/-- In a run of any number of nodes, where messages come and roles change at any moment, only the
master acts if each node that is not on a dry run stays master while a task of it runs a cycle as
the master or handles a release message that names an instance. -/
theorem onlyMasterActs_of_staysMaster [DecidableEq N] (nodes : N → NodeSetup F)
    (replies : Replies N)
    {hist : List (DaemonStep N)} {threads : N × Task → Daemon Unit} {start now : ℕ}
    (run : Interleaved replies.handler (fun who => (nodes who.1).task who.2) start hist threads now)
    (hstays : StaysMaster nodes replies hist) : OnlyMasterActs nodes replies hist := by
  induction run with
  | start => exact List.forall_mem_nil _
  | @step hist threads now run who e k hwho ih =>
    refine List.forall_mem_cons.mpr ⟨fun hacts => ?_, ih hstays.1⟩
    have hfollows : Follows (RoleView.Allows (nodes who.1).cfg) (RoleView.after (nodes who.1).cfg)
        (views nodes hist who) (threads who) :=
      run.follows (fun who => task_follows (nodes who.1) who.2) who
    rw [hwho] at hfollows
    obtain ⟨hengaged, hdry⟩ := hfollows.1 hacts
    refine hstays.2 hdry ?_ hengaged
    cases e <;> first | rfl | cases hacts

end Follows

section Example

/-- The instance `i-a` releases slot 0. -/
def releaseOfSlot0 : Option (Except String AsgChangeMsg) := some (.ok ⟨0, "release", some "i-a"⟩)

/-- The node `true` has the inside address, and `backup` is the message that the other node gets. -/
def pairReplies (backup : Option (Except String AsgChangeMsg)) : Replies Bool
  | _, node, .ipAddrShow => some (if node then "inet 10.0.0.1/24" else "")
  | _, node, .nextMessage => if node then releaseOfSlot0 else backup
  | _, _, e => okReply e

/-- The main tasks run, and then each listener handles its message. -/
def pairRun (backup : Option (Except String AsgChangeMsg)) :=
  play (pairReplies backup).handler (fun who : Bool × Task => (exampleNode 1).task who.2) 0
    (List.replicate 4 (false, .listener) ++ List.replicate 4 (true, .listener) ++
      List.replicate 16 (false, .main) ++ List.replicate 16 (true, .main))

/-- The backup gets no message. -/
theorem onlyMasterActs_without_message :
    OnlyMasterActs (fun _ => exampleNode 1) (pairReplies none) (pairRun none).1 ∧
      ∃ st ∈ (pairRun none).1, st.event.op = .terminateInstance "i-a" true :=
  ⟨onlyMasterActs_of_staysMaster (fun _ => exampleNode 1) (pairReplies none)
    (interleaved_play _ _ _ _) (by decide +kernel), by decide +kernel⟩

/-- Both nodes get the release, and the backup terminates the instance, too. -/
theorem backup_terminates : ¬ ∀ (nodes : Bool → NodeSetup ℚ) (replies : Replies Bool),
    (∀ i, (nodes i).cfg.vip_inside.isSome) → ∀ hist threads now,
      Interleaved replies.handler (fun who => (nodes who.1).task who.2) 0 hist threads now →
        OnlyMasterActs nodes replies hist := by
  intro h
  have honly := h (fun _ => exampleNode 1) (pairReplies releaseOfSlot0) (fun _ => rfl) _ _ _
    (interleaved_play _ _ 0 (List.replicate 4 (false, .listener) ++
      List.replicate 4 (true, .listener) ++ List.replicate 16 (false, .main) ++
      List.replicate 16 (true, .main)))
  exact absurd honly (by unfold OnlyMasterActs; decide +kernel)

end Example

end Aerosuite.Scale
