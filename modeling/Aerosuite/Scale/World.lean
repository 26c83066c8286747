import Aerosuite.Library.Interleaving
import Aerosuite.Scale.Daemon

/-! What the tasks of `aeroscale` share: Redis, and on each node the directory of weight files.
Other programs move this world between two operations of the daemon, and any request may fail.  What
the daemon observes besides is arbitrary. -/

namespace Aerosuite.Scale

open Pool Program

/-- The tasks of a node. -/
inductive Task where
  | main
  | listener
  deriving DecidableEq

/-- A node: its configuration, its clocks, and the number of rounds of its listener. -/
structure NodeSetup (F : Type) where
  cfg : DaemonConfig F
  start : StartClock
  clocks : List CycleClock
  rounds : ℕ

variable {F N : Type}

def NodeSetup.task [Scalar F] (node : NodeSetup F) : Task → Daemon Unit
  | .main => mainTask node.cfg node.start node.clocks
  | .listener => listenerTask node.cfg node.rounds false

/-- The replies that the environment gives to the operations of a node at a time. -/
abbrev Replies (N : Type) := ℕ → N → (e : Eff) → e.Reply

/-- Redis, and the content of the weight files of each node by their names. -/
structure World (N : Type) where
  disk : N → String → Option String
  redis : Redis ℕ

/-- What surrounds the daemons of a run, at each time: how others move the world before the
operation, the error with which the operation fails, if it does, and whether it had its effect, and
what the daemon observes besides. -/
structure Surroundings (N : Type) where
  moves : ℕ → World N → World N
  failure : ℕ → Option (String × Bool)
  replies : Replies N

section Perform

variable [DecidableEq N]

def World.write (w : World N) (node : N) (name value : String) : World N :=
  { w with disk := Function.update w.disk node (Function.update (w.disk node) name (some value)) }

def World.issue (w : World N) (c : Cmd ℕ) : World N := { w with redis := (exec c w.redis).2 }

/-- An operation of a node in the world. -/
def World.perform (node : N) (failure : Option (String × Bool)) (reply : (e : Eff) → e.Reply) :
    (e : Eff) → World N → e.Reply × World N
  | .redis c, w =>
    match failure with
    | none => (.ok (exec c w.redis).1, w.issue c)
    | some (text, effect) => (.error text, if effect then w.issue c else w)
  | .readFile name, w =>
    match failure with
    | none =>
      match w.disk node name with
      | some content => (.ok content, w)
      | none => (.error "No such file or directory", w)
    | some (text, _) => (.error text, w)
  | .writeFile name value, w =>
    match failure with
    | none => (.ok (), w.write node name value)
    | some (text, effect) => (.error text, if effect then w.write node name value else w)
  | e, w => (reply e, w)

/-- The operations of a run take one unit of time each. -/
def Surroundings.handler (env : Surroundings N) (who : N × Task) (e : Eff) (s : World N × ℕ) :
    e.Reply × (World N × ℕ) :=
  let (reply, w) := (env.moves s.2 s.1).perform who.1 (env.failure s.2) (env.replies s.2 who.1) e
  (reply, w, s.2 + 1)

end Perform

abbrev WorldStep (N : Type) := Step (N × Task) Eff Eff.Reply (World N × ℕ)

/-- The world in which the operation of a step happens. -/
def Surroundings.world (env : Surroundings N) (st : WorldStep N) : World N :=
  env.moves st.before.2 st.before.1

/-- The operation of a step has its effect. -/
def Surroundings.takesEffect (env : Surroundings N) (st : WorldStep N) : Prop :=
  (env.failure st.before.2).all Prod.snd = true

/-- The content of a weight file or of a weight key stands for draining. -/
def Draining (content : String) : Prop := trimText content = WEIGHT_DRAINING

instance (content : String) : Decidable (Draining content) := inferInstanceAs (Decidable (_ = _))

/-- The weight file of an address as a text. -/
def weightName (ip_str : String) : String := "backend-" ++ ip_str ++ ".weight"

namespace World

/-- The weight file of an address shows draining on a node. -/
def Shows (w : World N) (node : N) (ip_str : String) : Prop :=
  ∃ content, w.disk node (weightName ip_str) = some content ∧ Draining content

/-- The weight key of an address shows draining. -/
def Persisted (w : World N) (ip_str : String) : Prop :=
  ∃ value, w.redis.strings (.backendWeight ip_str) = some value ∧ Draining value

end World

section Lemmas

theorem draining_iff {content : String} :
    Draining content ↔ BackendState.fromWeightStr content = .draining := by
  unfold Draining trimText BackendState.fromWeightStr WEIGHT_DRAINING
  dsimp only
  split_ifs with h₀ h₁ h₂
  · simp [h₀]
  · simp [h₁]
  · simp [h₂]
  · simp [h₁]

theorem draining_trimText {content : String} : Draining (trimText content) ↔ Draining content := by
  unfold Draining trimText
  rw [String.toList_ofList, Text.trim_trim]

theorem not_draining_active : ¬Draining WEIGHT_ACTIVE := by
  unfold Draining trimText
  decide +kernel

theorem not_draining_disabled : ¬Draining WEIGHT_DISABLED := by
  unfold Draining trimText
  decide +kernel

theorem weightFileIp_iff {name ip_str : String} :
    weightFileIp name = some ip_str ↔ name = weightName ip_str := by
  constructor
  · intro h
    have hlist := weightFileIp_eq_some h
    exact String.toList_inj.mp (by simp [hlist, weightName])
  · rintro rfl
    simp [weightFileIp, weightName, Text.stripPrefix, Text.stripSuffix]

theorem weightFile_eq (ip : Ipv4Addr) : weightFile ip = weightName (String.ofList ip.display) := rfl

variable [DecidableEq N] {node node' : N} {failure : Option (String × Bool)}
  {reply : (e : Eff) → e.Reply} {w : World N} {e : Eff}

theorem strings_exec {c : Cmd ℕ} {db : Redis ℕ} {key : StringKey} {value : String}
    (h : (exec c db).2.strings key = some value) :
    db.strings key = some value ∨ c = .set key value := by
  cases c with
  | set key' value' =>
    by_cases hkey : key = key'
    · subst hkey
      right
      simpa [exec, Redis.set] using h
    · left
      simpa [exec, Redis.set, Function.update_of_ne hkey] using h
  | del key' =>
    by_cases hkey : key = key'
    · subst hkey
      simp [exec, Redis.del] at h
    · left
      simpa [exec, Redis.del, Function.update_of_ne hkey] using h
  | zaddNX key' member x =>
    left
    simp only [exec] at h
    split at h <;> exact h
  | zpopmin key' =>
    left
    simp only [exec] at h
    split at h <;> exact h
  | _ => exact .inl h

theorem strings_perform {key : StringKey} {value : String}
    (h : (w.perform node failure reply e).2.redis.strings key = some value) :
    w.redis.strings key = some value ∨ e = .redis (.set key value) := by
  cases e with
  | redis c =>
    rcases failure with _ | ⟨text, effect⟩
    · exact (strings_exec h).imp_right (congrArg Eff.redis)
    · cases effect
      · exact .inl h
      · exact (strings_exec h).imp_right (congrArg Eff.redis)
  | readFile name =>
    left
    rcases failure with _ | ⟨text, effect⟩
    · simp only [World.perform] at h
      split at h <;> exact h
    · exact h
  | writeFile name value' =>
    left
    rcases failure with _ | ⟨text, effect⟩
    · exact h
    · cases effect <;> exact h
  | _ => exact .inl h

theorem disk_perform {name content : String}
    (h : (w.perform node failure reply e).2.disk node' name = some content) :
    w.disk node' name = some content ∨
      node' = node ∧ failure.all Prod.snd = true ∧ e = .writeFile name content := by
  have hwrite : ∀ name' value, (w.write node name' value).disk node' name = some content →
      w.disk node' name = some content ∨ node' = node ∧ name' = name ∧ value = content := by
    intro name' value h
    by_cases hnode : node' = node
    · subst hnode
      by_cases hname : name = name'
      · subst hname
        exact .inr ⟨rfl, rfl, by simpa [World.write] using h⟩
      · exact .inl (by simpa [World.write, Function.update_of_ne hname] using h)
    · exact .inl (by simpa [World.write, Function.update_of_ne hnode] using h)
  cases e with
  | redis c =>
    rcases failure with _ | ⟨text, effect⟩
    · exact .inl h
    · cases effect <;> exact .inl h
  | readFile name =>
    left
    rcases failure with _ | ⟨text, effect⟩
    · simp only [World.perform] at h
      split at h <;> exact h
    · exact h
  | writeFile name' value =>
    rcases failure with _ | ⟨text, effect⟩
    · rcases hwrite _ _ h with h | ⟨hnode, rfl, rfl⟩
      · exact .inl h
      · exact .inr ⟨hnode, rfl, rfl⟩
    · cases effect
      · exact .inl h
      · rcases hwrite _ _ h with h | ⟨hnode, rfl, rfl⟩
        · exact .inl h
        · exact .inr ⟨hnode, rfl, rfl⟩
  | _ => exact .inl h

theorem readFile_perform (reply : (e : Eff) → e.Reply) {name content : String}
    (h : (w.perform node failure reply (.readFile name)).1 = .ok content) :
    w.disk node name = some content := by
  rcases failure with _ | ⟨text, effect⟩
  · simp only [World.perform] at h
    split at h
    · next hdisk => rw [hdisk, Except.ok.inj h]
    · cases h
  · cases h

theorem get_perform (node : N) (reply : (e : Eff) → e.Reply) {key : StringKey}
    {value : Option String} (h : (w.perform node failure reply (.redis (.get key))).1 = .ok value) :
    w.redis.strings key = value := by
  rcases failure with _ | ⟨text, effect⟩
  · exact Except.ok.inj h
  · cases h

end Lemmas

/-- A node whose inside address is 10.0.0.1, and whose main task runs for some cycles. -/
def exampleNode (cycles : ℕ) : NodeSetup ℚ where
  cfg :=
    { net := exampleNet
      vip_inside := some 167772161
      dry_run := false
      term_decrements_capacity := true
      orphan_grace_secs := 300
      weight_state_ttl := 300
      scale := ⟨200, 50, 10, 10 ^ 6, 20, 3, 1, 300, 300, 1⟩ }
  start := ⟨0, fun _ => 0⟩
  clocks := List.replicate cycles ⟨⟨fun _ => 0, fun _ => 0⟩, 0, ⟨fun _ => 0, 0, 0, 0, 0, 0, 0⟩⟩
  rounds := 2

end Aerosuite.Scale
