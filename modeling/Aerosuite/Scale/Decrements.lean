import Aerosuite.Library.History
import Aerosuite.Pool.Native
import Aerosuite.Scale.Orphans
import Aerosuite.Scale.Roles

/-! Terminations with decrement in the whole fleet: the tasks of the nodes, and the runs of
`aeroslot` on the instances, whose messages reach every listener that has subscribed.  A task asks
to terminate an instance with decrement when a cleanup pass retires it, and when a listener takes
its release message.  Nobody looks whether it was asked for before. -/

namespace Aerosuite.Scale

open Pool Program History

/-- Who takes part: the tasks of the nodes, and the runs of `aeroslot`. -/
inductive Party (N P : Type) where
  | daemon (node : N) (task : Task)
  | aeroslot (process : P)
  deriving DecidableEq

/-- A command of `aeroslot`, which an error of Redis ends. -/
def aeroslotRun {α : Type} : RedisProgram ℕ α → Daemon (Except String α)
  | .ret a => pure (.ok a)
  | .call c k => .call (.redis c) fun
    | .ok r => aeroslotRun (k r)
    | .error e => pure (.error e)

/-- What the parties share: Redis, and for each node whose listener has subscribed the messages that
it has not taken yet. -/
structure Fleet (N : Type) where
  redis : Redis ℕ
  waiting : N → Option (List AsgChangeMsg)
  time : ℕ

/-- What surrounds the parties, at each time: the error with which a Redis command fails, if it
does, and whether it had its effect, which of the waiting messages is delivered, unless the
connection is lost, and the replies to all other operations. -/
structure FleetEnv (N P : Type) where
  failure : ℕ → Option (String × Bool)
  delivery : ℕ → Option ℕ
  replies : ℕ → Party N P → (e : Eff) → e.Reply

variable {F N P S : Type}

section Handler

variable [DecidableEq N]

/-- A command takes effect.  A message goes to every listener that has subscribed. -/
def Fleet.issue (s : Fleet N) (c : Cmd ℕ) : Fleet N :=
  { s with
    redis := (exec c s.redis).2
    waiting := fun node =>
      match c with
      | .publish msg => (s.waiting node).map (· ++ [msg])
      | _ => s.waiting node }

def Fleet.listen (s : Fleet N) (node : N) (messages : Option (List AsgChangeMsg)) : Fleet N :=
  { s with waiting := Function.update s.waiting node messages }

/-- The message that a node takes next. -/
def Fleet.next (s : Fleet N) (node : N) (delivery : Option ℕ) :
    Option (Except String AsgChangeMsg) × Fleet N :=
  match s.waiting node, delivery with
  | some messages, some i =>
    match messages[i]? with
    | some msg => (some (.ok msg), s.listen node (some (messages.eraseIdx i)))
    | none => (none, s.listen node none)
  | _, _ => (none, s.listen node none)

def FleetEnv.answer (env : FleetEnv N P) (who : Party N P) :
    (e : Eff) → Fleet N → e.Reply × Fleet N
  | .redis c, s =>
    match env.failure s.time with
    | none => (.ok (exec c s.redis).1, s.issue c)
    | some (text, effect) => (.error text, if effect then s.issue c else s)
  | .subscribe, s =>
    match who, env.replies s.time who .subscribe with
    | .daemon node _, .ok () => (.ok (), s.listen node (some []))
    | _, reply => (reply, s)
  | .nextMessage, s =>
    match who with
    | .daemon node _ => s.next node (env.delivery s.time)
    | .aeroslot _ => (none, s)
  | e, s => (env.replies s.time who e, s)

/-- The operations of a run take one unit of time each. -/
def FleetEnv.handler (env : FleetEnv N P) (who : Party N P) (e : Eff) (s : Fleet N) :
    e.Reply × Fleet N :=
  let (reply, s') := env.answer who e s
  (reply, { s' with time := s.time + 1 })

end Handler

/-- The node asks for terminations with decrement. -/
def NodeSetup.Decrements (node : NodeSetup F) : Prop :=
  node.cfg.dry_run = false ∧ node.cfg.term_decrements_capacity = true

/-- Section 2.1 retires the instance, whose backend has the address. -/
def SystemSnapshot.Retires (snapshot : SystemSnapshot) (ip : Ipv4Addr) (id : String) : Prop :=
  ∃ l ∈ snapshot.leases, l.owner_instance_id = id ∧ snapshot.OwnerLive l ∧
    ∃ b ∈ snapshot.backendOf l.slot,
      b.weight_state = .draining ∧ b.activeConn = 0 ∧ snapshot.atMin = false ∧ b.ip = ip

section Condemns

variable [Scalar F]

def Party.program (nodes : N → NodeSetup F) (cmds : P → NativeCmd ℕ) : Party N P → Daemon Unit
  | .daemon node task => (nodes node).task task
  | .aeroslot process => do
    let _ ← aeroslotRun (cmds process).program
    pure ()

/-- What the main task of a node has performed when its startup and some cycles are over, and its
state then. -/
inductive NodeSetup.MainLog (node : NodeSetup F) :
    List (Event Eff Eff.Reply) → DaemonState F → Prop
  | start {t : List (Event Eff Eff.Reply)} {r : Except String Unit}
      (init : Exec (initWeights node.cfg.net node.start.init node.start.lease
        node.cfg.weight_state_ttl) t r) :
      MainLog node t ⟨fun _ => none, ⟨fun _ => none⟩, .default⟩
  | cycle {t t₁ t₂ : List (Event Eff Eff.Reply)} {state state' : DaemonState F} {is_master : Bool}
      {clock : CycleClock} (log : MainLog node t state)
      (role : Exec (readRole node.cfg.vip_inside) t₁ is_master)
      (cycle : Exec (cycleAs node.cfg is_master clock state) t₂ state') :
      MainLog node (t ++ (t₁ ++ t₂)) state'

/-- After `before` the main task of the node performs `e` in a cleanup pass on the snapshot. -/
def NodeSetup.CleansUp (node : NodeSetup F) (before : List (Event Eff Eff.Reply))
    (snapshot : SystemSnapshot) (e : Eff) : Prop :=
  ∃ t₀ state t₁ t₂ cache clock t₃, node.MainLog t₀ state ∧
    Exec (readRole node.cfg.vip_inside) t₁ true ∧
    Exec (collect node.cfg.net state.owner_cache) t₂ (.ok snapshot, cache) ∧
    Performs (cleanupRun snapshot clock node.cfg.dry_run true node.cfg.term_decrements_capacity
      state.cleanup node.cfg.orphan_grace_secs) t₃ e ∧
    before = t₀ ++ (t₁ ++ (t₂ ++ t₃))

/-- With this operation, after those before it, the party commits itself to terminate the instance
with decrement: a listener takes its release message, and a cleanup pass disables its backend to
retire it. -/
def Party.Condemns (nodes : N → NodeSetup F) (ev : Event Eff Eff.Reply)
    (before : List (Event Eff Eff.Reply)) (id : String) : Party N P → Prop
  | .daemon node .listener => (nodes node).Decrements ∧
      ∃ msg, ev = ⟨.nextMessage, some (.ok msg)⟩ ∧ msg.action = "release" ∧
        msg.instance_id = some id
  | .daemon node .main => (nodes node).Decrements ∧
      ∃ snapshot ip, (nodes node).CleansUp before snapshot ev.op ∧ snapshot.Retires ip id ∧
        ev = ⟨.writeFile (weightFile ip) WEIGHT_DISABLED, .ok ()⟩
  | .aeroslot _ => False

variable [DecidableEq N] [DecidableEq P]

/-- The step commits its party to terminate the instance with decrement. -/
def Condemns (nodes : N → NodeSetup F) (id : String) (st : Step (Party N P) Eff Eff.Reply S)
    (older : List (Step (Party N P) Eff Eff.Reply S)) : Prop :=
  st.who.Condemns nodes st.event (performedBy st.who older) id

/-- The step asks to terminate the instance with decrement. -/
def AsksDecrement (id : String) (st : Step (Party N P) Eff Eff.Reply S) : Prop :=
  st.event.op = .terminateInstance id true

end Condemns

section Programs

variable {P : Prop} {α : Type} {id : String} {t : List (Event Eff Eff.Reply)}

theorem terminateInstance_performs {dry_run decrement : Bool} {id' : String}
    (h : Performs (terminateInstance id' dry_run decrement) t (.terminateInstance id true)) :
    t = [] ∧ dry_run = false ∧ decrement = true ∧ id' = id := by
  unfold terminateInstance at h
  split at h
  · exact absurd h not_performs_ret
  · next hdry =>
    rcases performs_call.mp h with ⟨rfl, heq⟩ | ⟨r, t', -, h'⟩
    · obtain ⟨rfl, rfl⟩ := Eff.terminateInstance.inj heq
      exact ⟨rfl, by simpa using hdry, rfl, rfl⟩
    · exact absurd h' not_performs_ret

/-- A program that does not act terminates nothing. -/
theorem not_performs_of_within {p : Daemon α} (hp : p.Always (Within False)) {decrement : Bool}
    (t : List (Event Eff Eff.Reply)) : ¬Performs p t (.terminateInstance id decrement) :=
  fun h => (hp.performs h).1 rfl

section Cleanup

variable {snapshot : SystemSnapshot} {clock : PassClock} {dry_run decrement : Bool} {grace : ℕ}

/-- Section 2.1 retires the instance: it has just disabled the backend. -/
def RetiredBy (snapshot : SystemSnapshot) (dry_run decrement : Bool) (id : String)
    (t : List (Event Eff Eff.Reply)) : Prop :=
  dry_run = false ∧ decrement = true ∧ ∃ t' ip, snapshot.Retires ip id ∧
    t = t' ++ [⟨.writeFile (weightFile ip) WEIGHT_DISABLED, .ok ()⟩]

theorem retire_performs {lease : SlotLease} {ip : Ipv4Addr}
    (h : Performs ((LeaseAction.retire ip).perform clock dry_run decrement lease) t
      (.terminateInstance id true)) :
    dry_run = false ∧ decrement = true ∧ lease.owner_instance_id = id ∧
      t = [⟨.writeFile (weightFile ip) WEIGHT_DISABLED, .ok ()⟩] := by
  obtain ⟨t₁, r, t₂, rfl, hwrite, hterm⟩ := h.second (not_performs_of_within writeWeight_within)
  cases r with
  | error e => exact absurd hterm not_performs_ret
  | ok a =>
    obtain ⟨rfl, rfl, rfl, rfl⟩ := terminateInstance_performs hterm
    refine ⟨rfl, rfl, rfl, ?_⟩
    obtain ⟨r', hr', heq⟩ := exec_context.mp hwrite
    obtain rfl := exec_perform.mp hr'
    cases r' with
    | ok a => rfl
    | error e => cases heq

theorem handleLease_performs {lease : SlotLease} (hlease : lease ∈ snapshot.leases)
    (h : Performs (handleLease snapshot clock dry_run decrement lease) t
      (.terminateInstance id true)) : RetiredBy snapshot dry_run decrement id t := by
  rw [handleLease_eq] at h
  obtain rfl : dry_run = false := ((perform_within _).performs h).1 rfl
  obtain ⟨⟨ip, haction⟩, -, -⟩ := terminate_mem_requests.mp ((perform_always _).performs h)
  rw [haction] at h
  obtain ⟨hdry, hdec, hid, rfl⟩ := retire_performs h
  obtain ⟨hlive, hb⟩ := leaseAction_eq_retire.mp haction
  exact ⟨hdry, hdec, [], ip, ⟨lease, hlease, hid, hlive, hb⟩, rfl⟩

theorem section21_performs (h : Performs (section21 snapshot clock dry_run decrement) t
    (.terminateInstance id true)) : RetiredBy snapshot dry_run decrement id t := by
  rw [section21_eq] at h
  split at h
  · obtain ⟨lease, hlease, t₁, t₂, rfl, hbody⟩ := performs_forEach h
    obtain ⟨hdry, hdec, t', ip, hretires, rfl⟩ :=
      handleLease_performs hlease (performs_bind_ret.mp hbody)
    exact ⟨hdry, hdec, t₁ ++ t', ip, hretires, (List.append_assoc ..).symm⟩
  · exact absurd h not_performs_ret

/-- A cleanup pass asks for a termination with decrement only to retire an instance. -/
theorem cleanupRun_performs {is_master : Bool} {state : CleanupState}
    (h : Performs (cleanupRun snapshot clock dry_run is_master decrement state grace) t
      (.terminateInstance id true)) :
    is_master = true ∧ RetiredBy snapshot dry_run decrement id t := by
  obtain ⟨rfl, rfl⟩ := (cleanupRun_within.performs h).1 rfl
  refine ⟨rfl, ?_⟩
  rw [cleanupRun, if_neg (by simp)] at h
  rcases performs_bind.mp h with h₂₁ | ⟨t₁, _, t', rfl, -, h'⟩
  · exact section21_performs h₂₁
  · rcases performs_bind.mp h' with h₂₂ | ⟨t₂, _, t'', rfl, -, h''⟩
    · obtain ⟨-, _, -, -, heq⟩ := section22_always.performs h₂₂
      cases heq
    · exact absurd (performs_bind_ret.mp h'') (not_performs_of_within section23_within _)

end Cleanup

variable [Scalar F] {node : NodeSetup F}

/-- The cleanup pass of the main task has just disabled the backend of the instance to retire it. -/
def NodeSetup.Retiring (node : NodeSetup F) (id : String) (t : List (Event Eff Eff.Reply)) : Prop :=
  node.Decrements ∧ ∃ t' snapshot ip, snapshot.Retires ip id ∧
    node.CleansUp t' snapshot (.writeFile (weightFile ip) WEIGHT_DISABLED) ∧
    t = t' ++ [⟨.writeFile (weightFile ip) WEIGHT_DISABLED, .ok ()⟩]

theorem readRole_always {vip_inside : Option Ipv4Addr} :
    (readRole vip_inside).Always (· = .ipAddrShow) := by
  cases vip_inside with
  | none => trivial
  | some vip => exact ⟨rfl, fun _ => trivial⟩

theorem scalerRun_always {snapshot : SystemSnapshot} {config : ScaleConfig F}
    {state : ScalerState F} {clock : ScalerClock} {dry_run : Bool} :
    (scalerRun snapshot config state clock dry_run).Always
      fun e => ∀ id decrement, e ≠ .terminateInstance id decrement := by
  unfold scalerRun
  dsimp only
  split
  · trivial
  · refine Always.bind (evaluateScaleUp_always.mono fun e he => ?_) fun state => ?_
    · rcases he with rfl | ⟨-, n, rfl⟩ <;> exact nofun
    · unfold evaluateDrain
      dsimp only
      split
      · trivial
      · refine Always.bind ?_ fun r => by cases r <;> trivial
        cases dry_run with
        | true => trivial
        | false => exact writeWeight_always.mono fun e he => he ▸ nofun

theorem cycleAs_performs {t₀ t₁ : List (Event Eff Eff.Reply)} {state : DaemonState F}
    {is_master : Bool} {clock : CycleClock} (log : node.MainLog t₀ state)
    (role : Exec (readRole node.cfg.vip_inside) t₁ is_master)
    (h : Performs (cycleAs node.cfg is_master clock state) t (.terminateInstance id true)) :
    node.Retiring id (t₀ ++ (t₁ ++ t)) := by
  obtain ⟨rfl, -⟩ := (cycleAs_within.performs h).1 rfl
  obtain ⟨t₂, ⟨result, cache⟩, t', rfl, hcollect, h'⟩ :=
    h.second (not_performs_of_within collect_within)
  cases result with
  | error e => exact absurd h' not_performs_ret
  | ok snapshot =>
    rcases performs_bind.mp h' with hclean | ⟨_, cleanup, t₄, -, -, hrest⟩
    · obtain ⟨-, hdry, hdec, t₃, ip, hretires, rfl⟩ := cleanupRun_performs hclean
      refine ⟨⟨hdry, hdec⟩, t₀ ++ (t₁ ++ (t₂ ++ t₃)), snapshot, ip, hretires, ?_, by simp⟩
      exact ⟨t₀, state, t₁, t₂, cache, _, t₃, log, role, hcollect, hclean.before, rfl⟩
    · obtain ⟨_, _, _, -, -, hlast⟩ := hrest.second (not_performs_of_within persist_within)
      exact absurd rfl (scalerRun_always.performs (performs_bind_ret.mp hlast) _ _)

theorem refreshLoop_performs {clocks : List CycleClock} {t₀ : List (Event Eff Eff.Reply)}
    {state : DaemonState F} (log : node.MainLog t₀ state)
    (h : Performs (refreshLoop node.cfg clocks state) t (.terminateInstance id true)) :
    node.Retiring id (t₀ ++ t) := by
  induction clocks generalizing t₀ state t with
  | nil => exact absurd h not_performs_ret
  | cons clock clocks ih =>
    rcases performs_bind.mp h with hrole | ⟨t₁, is_master, t', rfl, role, h'⟩
    · cases readRole_always.performs hrole
    · rcases performs_bind.mp h' with hcycle | ⟨t₂, state', t₃, rfl, cycle, hloop⟩
      · exact cycleAs_performs log role hcycle
      · have hrest := ih (log.cycle role cycle) hloop
        simpa only [List.append_assoc] using hrest

theorem mainTask_performs (h : Performs (node.task .main) t (.terminateInstance id true)) :
    node.Retiring id t := by
  obtain ⟨t₁, r, t₂, rfl, init, hloop⟩ := h.second (not_performs_of_within initWeights_within)
  exact refreshLoop_performs (.start init) hloop

omit [Scalar F]

/-- The operations of a trace do not ask to terminate the instance with decrement. -/
def Spares (id : String) (t : List (Event Eff Eff.Reply)) : Prop :=
  ∀ ev ∈ t, ev.op ≠ .terminateInstance id true

/-- Asked for by the listener: it has taken the release message of the instance. -/
def AsksRelease (id : String) (msg : AsgChangeMsg) : Prop :=
  msg.action = "release" ∧ msg.instance_id = some id

theorem handleMessage_performs {cfg : DaemonConfig F} {msg : AsgChangeMsg}
    (h : Performs (handleMessage cfg msg) t (.terminateInstance id true)) :
    cfg.dry_run = false ∧ cfg.term_decrements_capacity = true ∧ AsksRelease id msg ∧
      Spares id t := by
  unfold handleMessage at h
  dsimp only at h
  split at h
  · exact absurd (performs_bind_ret.mp h) (not_performs_of_within writeWeight_within _)
  · split at h
    · next haction =>
      obtain ⟨t₁, _, t₂, rfl, hwrite, hrest⟩ :=
        h.second (not_performs_of_within writeWeight_within)
      cases hid : msg.instance_id with
      | none =>
        rw [hid] at hrest
        exact absurd hrest not_performs_ret
      | some id' =>
        rw [hid] at hrest
        obtain ⟨rfl, hdry, hdec, rfl⟩ := terminateInstance_performs (performs_bind_ret.mp hrest)
        refine ⟨hdry, hdec, ⟨haction, hid⟩, fun ev hev heq => ?_⟩
        rw [List.append_nil] at hev
        have hwithin : Within False ev.op := writeWeight_within.exec hwrite ev hev
        exact hwithin.1 (by rw [heq]; rfl)
    · exact absurd h not_performs_ret

/-- The release message of the instance was taken, and since then it has not been terminated with
decrement. -/
def Warned (id : String) (t : List (Event Eff Eff.Reply)) : Prop :=
  ∃ t₁ msg t₂, t = t₁ ++ ⟨.nextMessage, some (.ok msg)⟩ :: t₂ ∧ AsksRelease id msg ∧ Spares id t₂

theorem Warned.append (h : Warned id t) (t₀ : List (Event Eff Eff.Reply)) :
    Warned id (t₀ ++ t) := by
  obtain ⟨t₁, msg, t₂, rfl, hrest⟩ := h
  exact ⟨t₀ ++ t₁, msg, t₂, (List.append_assoc ..).symm, hrest⟩

/-- A listener that terminates an instance with decrement has taken its release message. -/
theorem listenerTask_performs {cfg : DaemonConfig F} {rounds : ℕ} {subscribed : Bool}
    (h : Performs (listenerTask cfg rounds subscribed) t (.terminateInstance id true)) :
    (cfg.dry_run = false ∧ cfg.term_decrements_capacity = true) ∧ Warned id t := by
  induction rounds generalizing subscribed t with
  | zero => exact absurd h not_performs_ret
  | succ rounds ih =>
    cases subscribed with
    | false =>
      rcases performs_call.mp h with ⟨-, heq⟩ | ⟨r, t', rfl, h'⟩
      · cases heq
      · have hloop : ∃ subscribed,
            Performs (listenerTask cfg rounds subscribed) t' (.terminateInstance id true) := by
          cases r with
          | ok a => exact ⟨true, h'⟩
          | error e => exact ⟨false, h'⟩
        obtain ⟨subscribed, hloop⟩ := hloop
        exact (ih hloop).imp_right fun hw => hw.append [_]
    | true =>
      rcases performs_call.mp h with ⟨-, heq⟩ | ⟨r, t', rfl, h'⟩
      · cases heq
      · rcases r with _ | e | msg
        · exact (ih h').imp_right fun hw => hw.append [_]
        · exact (ih h').imp_right fun hw => hw.append [_]
        · have hbody : Performs (handleMessage cfg msg >>= fun _ => listenerTask cfg rounds true) t'
              (.terminateInstance id true) := h'
          rcases performs_bind.mp hbody with hmsg | ⟨t₁, _, t₂, rfl, -, hloop⟩
          · obtain ⟨hdry, hdec, hasks, hspares⟩ := handleMessage_performs hmsg
            exact ⟨⟨hdry, hdec⟩, [], msg, t', rfl, hasks, hspares⟩
          · exact (ih hloop).imp_right fun hw => hw.append (_ :: t₁)

theorem aeroslotRun_always {p : RedisProgram ℕ α} :
    (aeroslotRun p).Always fun e => ∃ c, e = .redis c := by
  induction p with
  | ret a => trivial
  | call c k ih =>
    rw [aeroslotRun, always_call]
    refine ⟨⟨c, rfl⟩, fun r => ?_⟩
    cases r with
    | ok r => exact ih r
    | error e => trivial

end Programs

section Fleet

variable [Scalar F] {nodes : N → NodeSetup F} {cmds : P → NativeCmd ℕ} {id : String}

/-- The party has committed itself to terminate the instance with decrement and has not yet done
so. -/
def Committed (nodes : N → NodeSetup F) (id : String) (t : List (Event Eff Eff.Reply))
    (who : Party N P) : Prop :=
  ∃ t₁ ev t₂, t = t₁ ++ ev :: t₂ ∧ who.Condemns nodes ev t₁ id ∧ Spares id t₂

theorem Party.committed {who : Party N P} {t : List (Event Eff Eff.Reply)}
    (h : Performs (who.program nodes cmds) t (.terminateInstance id true)) :
    Committed nodes id t who := by
  cases who with
  | daemon node task =>
    cases task with
    | main =>
      obtain ⟨hdec, t', snapshot, ip, hretires, hclean, rfl⟩ := mainTask_performs h
      exact ⟨t', _, [], rfl, ⟨hdec, snapshot, ip, hclean, hretires, rfl⟩, nofun⟩
    | listener =>
      obtain ⟨hdec, t₁, msg, t₂, rfl, ⟨haction, hid⟩, hspares⟩ := listenerTask_performs h
      exact ⟨t₁, _, t₂, rfl, ⟨hdec, msg, rfl, haction, hid⟩, hspares⟩
  | aeroslot process =>
    rcases performs_bind.mp h with hrun | ⟨_, _, _, -, -, hret⟩
    · obtain ⟨c, hc⟩ := aeroslotRun_always.performs hrun
      cases hc
    · exact absurd hret not_performs_ret

variable [DecidableEq N] [DecidableEq P]

theorem committed_cons {st : Step (Party N P) Eff Eff.Reply S}
    {hist : List (Step (Party N P) Eff Eff.Reply S)} {who : Party N P}
    (h : Committed nodes id (performedBy who (st :: hist)) who) :
    who = st.who ∧ Condemns nodes id st hist ∨
      Committed nodes id (performedBy who hist) who ∧ ¬(who = st.who ∧ AsksDecrement id st) := by
  obtain ⟨t₁, ev, t₂, heq, hcondemns, hspares⟩ := h
  rw [performedBy] at heq
  by_cases hwho : st.who = who
  · subst hwho
    rw [if_pos rfl] at heq
    rcases List.eq_nil_or_concat t₂ with rfl | ⟨t₃, last, rfl⟩
    · obtain ⟨rfl, hlast⟩ := List.append_inj' heq rfl
      obtain rfl := (List.cons.inj hlast).1
      exact .inl ⟨rfl, hcondemns⟩
    · rw [List.concat_eq_append, ← List.cons_append, ← List.append_assoc] at heq
      obtain ⟨hold, hlast⟩ := List.append_inj' heq rfl
      obtain rfl := (List.cons.inj hlast).1
      refine .inr ⟨⟨t₁, ev, t₃, hold, hcondemns, fun ev' hev' => hspares ev' (by simp [hev'])⟩, ?_⟩
      exact fun h => hspares st.event (by simp) h.2
  · rw [if_neg hwho, List.append_nil] at heq
    exact .inr ⟨⟨t₁, ev, t₂, heq, hcondemns, hspares⟩, fun h => hwho h.1.symm⟩

/-- The operation writes the weight that disables a backend. -/
def disables : Eff → Bool
  | .writeFile _ text => text = WEIGHT_DISABLED
  | _ => false

/-- A main task that disables a backend, or a message, is behind every commitment. -/
theorem kind_of_condemns {st : Step (Party N P) Eff Eff.Reply S}
    {older : List (Step (Party N P) Eff Eff.Reply S)} (h : Condemns nodes id st older) :
    (∃ node, st.who = .daemon node .main) ∧ disables st.event.op = true ∨
      st.event.op = .nextMessage := by
  obtain ⟨who, event, before⟩ := st
  rcases who with ⟨node, _ | _⟩ | process
  · obtain ⟨-, snapshot, ip, -, -, rfl⟩ := h
    exact .inl ⟨⟨node, rfl⟩, by simp [disables]⟩
  · obtain ⟨-, msg, rfl, -⟩ := h
    exact .inr rfl
  · exact h.elim

/-- In every run, whatever the environment replies, an instance is terminated with decrement at most
once when at most one step commits a party to it. -/
theorem atMostOne_of_once {answer : Party N P → (e : Eff) → S → e.Reply × S} {s₀ s : S}
    {hist : List (Step (Party N P) Eff Eff.Reply S)} {threads : Party N P → Daemon Unit}
    (run : Interleaved answer (Party.program nodes cmds) s₀ hist threads s)
    (hcond : Once (Condemns nodes id) hist) : AtMostOne (AsksDecrement id) hist := by
  have hbalanced : ∀ older, older <:+ hist → Balanced (Condemns nodes id) (AsksDecrement id)
      (fun older who => Committed nodes id (performedBy who older) who) older := by
    intro older hsuffix
    induction older with
    | nil =>
      refine balanced_nil fun who => ?_
      rintro ⟨t₁, ev, t₂, heq, -⟩
      simp [performedBy] at heq
    | cons st older ih =>
      refine Balanced.cons Step.who (ih ((List.suffix_cons st older).trans hsuffix))
        (fun e older' h => hcond e older' (h.trans hsuffix)) (fun who h => committed_cons h) ?_
      intro hasks
      have hperforms := run.performs hsuffix
      rw [show st.event.op = _ from hasks] at hperforms
      exact Party.committed hperforms
  exact (hbalanced hist (List.suffix_refl _)).atMostOne

/-- In every run of the fleet whose steps do not commit a party to terminate an instance to which a
step before committed one, each instance is terminated with decrement at most once. -/
theorem decrements_at_most_once (env : FleetEnv N P) (nodes : N → NodeSetup F)
    (cmds : P → NativeCmd ℕ) {s₀ s : Fleet N}
    {hist : List (Step (Party N P) Eff Eff.Reply (Fleet N))} {threads : Party N P → Daemon Unit}
    (run : Interleaved env.handler (Party.program nodes cmds) s₀ hist threads s)
    (hcond : ∀ id, Once (Condemns nodes id) hist) (id : String) :
    AtMostOne (AsksDecrement id) hist :=
  atMostOne_of_once run (hcond id)

end Fleet

section Example

/-- The node `true` has the inside address, and 10.0.0.20 drains without connection.  The instance
i-a is in service in a group of two that must keep one. -/
def fleetEnv : FleetEnv Bool Unit where
  failure _ := none
  delivery _ := some 0
  replies
    | _, who, .ipAddrShow => some (if who = .daemon true .main then "inet 10.0.0.1/24" else "")
    | _, _, .readDir => .ok ⟨["backend-10.0.0.20.weight"], none⟩
    | _, _, .readFile _ => .ok WEIGHT_DRAINING
    | _, _, .describeAsg => .ok [⟨"pool", 2, 1, 4, [⟨"i-a", "InService", "Healthy"⟩]⟩]
    | _, _, e => okReply e

/-- Slot 0 is leased to i-a, and its weight was persisted. -/
def fleetStart : Fleet Bool where
  redis := ((((Redis.empty.zadd .leases "0" 60000).set (.owner "0") "i-a").set
    (.backendWeight "10.0.0.20") WEIGHT_DRAINING).set .backendWeightsTs "0")
  waiting _ := none
  time := 0

/-- A run in which i-a releases slot 0 when it shuts down. -/
def fleetRun (turns : List (Party Bool Unit)) :=
  play fleetEnv.handler (Party.program (fun _ => exampleNode 1) fun _ => .release 0 "i-a" 100)
    fleetStart turns

theorem fleetRun_run (turns : List (Party Bool Unit)) :
    Interleaved fleetEnv.handler
      (Party.program (fun _ => exampleNode 1) fun _ => .release 0 "i-a" 100) fleetStart
      (fleetRun turns).1 (fleetRun turns).2.1 (fleetRun turns).2.2 :=
  interleaved_play _ _ _ _

/-- The listeners subscribe, the cleanup of the master terminates i-a, i-a releases its slot, and
then each listener takes the message. -/
def retireAndRelease : List (Party Bool Unit) :=
  List.replicate 3 (.daemon false .listener) ++ List.replicate 3 (.daemon true .listener) ++
    List.replicate 5 (.aeroslot ()) ++ List.replicate 13 (.daemon true .main) ++
    [.daemon false .listener, .daemon true .listener]

instance decidableAsksDecrement {N P S : Type} (id : String)
    (st : Step (Party N P) Eff Eff.Reply S) :
    Decidable (AsksDecrement id st) := inferInstanceAs (Decidable (_ = _))

theorem accepted_fleetEnv (who : Party Bool Unit) (e : Eff) (s : Fleet Bool) :
    Accepted ⟨e, (fleetEnv.handler who e s).1⟩ := by
  cases e <;> trivial

/-- Every request is accepted, and i-a is terminated with decrement three times. -/
theorem decrements_thrice : ¬ ∀ (env : FleetEnv Bool Unit) (nodes : Bool → NodeSetup ℚ)
    (cmds : Unit → NativeCmd ℕ) s₀ hist threads s,
    Interleaved env.handler (Party.program nodes cmds) s₀ hist threads s →
      (∀ st ∈ hist, Accepted st.event) → ∀ id, AtMostOne (AsksDecrement id) hist := by
  intro h
  have run := fleetRun_run retireAndRelease
  have haccepted : ∀ st ∈ (fleetRun retireAndRelease).1, Accepted st.event := by
    rintro ⟨who, ⟨op, reply⟩, before⟩ hst
    obtain rfl : reply = (fleetEnv.handler who op before).1 := run.reply _ hst
    exact accepted_fleetEnv who op before
  exact absurd (h _ _ _ _ _ _ _ run haccepted "i-a") (by unfold AtMostOne; decide +kernel)

/-- The cleanup of the master terminates i-a, which then releases its slot.  The other node starts,
and a listener subscribes when the message is gone. -/
def cleanupOnly : List (Party Bool Unit) :=
  .daemon true .listener :: List.replicate 12 (.daemon false .main) ++
    List.replicate 5 (.aeroslot ()) ++ List.replicate 13 (.daemon true .main)

/-- One listener has subscribed when i-a releases its slot, and takes the message.  Then the main
task of the master starts and collects its first snapshot. -/
def releaseOnly : List (Party Bool Unit) :=
  List.replicate 10 (.daemon true .main) ++ List.replicate 3 (.daemon true .listener) ++
    List.replicate 5 (.aeroslot ()) ++ [.daemon true .listener]

/-- The instance i-a is terminated once, by the cleanup in one run and by the listener in the
other. -/
theorem decrements_at_most_once_released :
    (AtMostOne (AsksDecrement "i-a") (fleetRun cleanupOnly).1 ∧
      ∃ st ∈ (fleetRun cleanupOnly).1, st.who = .daemon true .main ∧ AsksDecrement "i-a" st) ∧
    AtMostOne (AsksDecrement "i-a") (fleetRun releaseOnly).1 ∧
      ∃ st ∈ (fleetRun releaseOnly).1, st.who = .daemon true .listener ∧
        AsksDecrement "i-a" st := by
  have hmessages : ∀ turns ∈ [cleanupOnly, releaseOnly],
      AtMostOne (fun st => (st.who = .daemon true .main ∨ st.who = .daemon false .main) ∧
        disables st.event.op = true ∨ st.event.op = .nextMessage) (fleetRun turns).1 := by
    unfold AtMostOne
    decide +kernel
  have honce : ∀ turns ∈ [cleanupOnly, releaseOnly],
      AtMostOne (AsksDecrement "i-a") (fleetRun turns).1 := by
    intro turns hturns
    refine decrements_at_most_once _ _ _ (fleetRun_run turns) (fun id => ?_) _
    refine (hmessages turns hturns).once fun st older _ hcondemns => ?_
    rcases kind_of_condemns hcondemns with ⟨⟨node, hnode⟩, hop⟩ | hop
    · refine .inl ⟨?_, hop⟩
      cases node with
      | true => exact .inl hnode
      | false => exact .inr hnode
    · exact .inr hop
  exact ⟨⟨honce _ (by simp), by decide +kernel⟩, honce _ (by simp), by decide +kernel⟩

end Example

end Aerosuite.Scale
