import Aerosuite.Scale.MainView

/-! Which instances the cleanup retires in a run of several nodes.  A weight file or a weight key
that shows draining is genuine when `evaluate_drain` drained the backend while the instance that now
holds its slot held it.  Nothing in a file or a key says who wrote it, and so this is an invariant
of runs in which the surroundings keep to an order. -/

namespace Aerosuite.Scale

open Pool Program

variable {F N : Type}

/-- Nodes that manage the backends of one slot network.  A node that restarts is another node. -/
structure Cluster (F N : Type) where
  net : SlotNetwork
  nodes : N → NodeSetup F
  same_net : ∀ i, (nodes i).cfg.net = net

def Cluster.task [Scalar F] (cluster : Cluster F N) (who : N × Task) : Daemon Unit :=
  (cluster.nodes who.1).task who.2

section Definitions

variable [DecidableEq N] (net : SlotNetwork) (env : Surroundings N)

/-- What a task holds after a history. -/
def taskView (hist : List (WorldStep N)) (who : N × Task) : MainView :=
  protocolState (fun who => who.2.after net) (fun _ => .start) hist who

/-- What the main task of a node holds after a history. -/
def mainView (hist : List (WorldStep N)) (node : N) : MainView := taskView net hist (node, .main)

/-- In a step after `hist`, `evaluate_drain` writes draining for a backend while `owner` holds the
lease of its slot. -/
structure DrainedIn (hist : List (WorldStep N)) (st : WorldStep N) (ip_str owner : String) :
    Prop where
  main : st.who.2 = .main
  after_collect : (mainView net hist st.who.1).phase.AfterCollect
  write : st.event.op = .writeFile (weightName ip_str) WEIGHT_DRAINING
  effect : env.takesEffect st
  held : ∃ slot_str, slotIp net slot_str = ip_str ∧ (env.world st).redis.owner slot_str = some owner

variable (before : String → String → Prop)

/-- The instance was drained while it held the slot of the backend: before the run, as `before`
says, or in a step of it. -/
def Drained : List (WorldStep N) → String → String → Prop
  | [], ip_str, owner => before ip_str owner
  | st :: hist, ip_str, owner => Drained hist ip_str owner ∨ DrainedIn net env hist st ip_str owner

/-- Whoever holds the slot of a backend was drained. -/
def Genuine (hist : List (WorldStep N)) (w : World N) (ip_str : String) : Prop :=
  ∀ slot_str owner, slotIp net slot_str = ip_str → w.redis.owner slot_str = some owner →
    Drained net env before hist ip_str owner

/-- Each lease owner that section 2.1 terminated was drained for the backend that it disabled just
before.  Section 2.2 terminates no lease owner. -/
def OnlyDrainedRetired : List (WorldStep N) → Prop
  | [] => True
  | st :: hist =>
    OnlyDrainedRetired hist ∧
      ∀ owner decrement, st.who.2 = .main → st.event.op = .terminateInstance owner decrement →
        owner ∈ (mainView net hist st.who.1).leased →
          ∃ ip_str, (mainView net hist st.who.1).written = some ip_str ∧
            Drained net env before hist ip_str owner

/-- No weight file of a running node, no weight key and no weight that a main task carries shows
draining for a backend. -/
structure Settled (hist : List (WorldStep N)) (w : World N) (ip_str : String) : Prop where
  files : ∀ i, (mainView net hist i).phase.InLoop → ¬w.Shows i ip_str
  key : ¬w.Persisted ip_str
  carried : ∀ i, ip_str ∉ (mainView net hist i).carried

/-- The order that the surroundings keep to in a step after `hist`: others turn neither the weight
file of a running node nor a weight key to draining, and a slot gets a new holder only when the
weight of its backend is settled; a weight file that shows draining when the refresh loop of a node
starts is genuine; and when the owner of a draining backend cannot be read, the one in the cache
still holds the slot. -/
structure Orderly (hist : List (WorldStep N)) (st : WorldStep N) : Prop where
  files : ∀ i, (mainView net hist i).phase.InLoop → ∀ ip_str, (env.world st).Shows i ip_str →
    st.before.1.Shows i ip_str
  keys : ∀ ip_str, (env.world st).Persisted ip_str → st.before.1.Persisted ip_str
  holders : ∀ slot_str owner, (env.world st).redis.owner slot_str = some owner →
    st.before.1.redis.owner slot_str = some owner ∨
      Settled net hist (env.world st) (slotIp net slot_str)
  start : st.who.2 = .main → ¬(mainView net hist st.who.1).phase.InLoop →
    ((mainView net hist st.who.1).after net st.event).phase.InLoop →
      ∀ ip_str, (env.world st).Shows st.who.1 ip_str →
        Genuine net env before hist (env.world st) ip_str
  cached : ∀ slot_str text, st.who.2 = .main →
    st.event = ⟨.redis (.get (.owner slot_str)), .error text⟩ →
      slotIp net slot_str ∈ (mainView net hist st.who.1).carried →
        ∀ owner, (mainView net hist st.who.1).owner_cache (slotNumber slot_str) = some owner →
          (env.world st).redis.owner slot_str = some owner

/-- The surroundings keep to the order in every step. -/
def InOrder : List (WorldStep N) → Prop
  | [] => True
  | st :: hist => InOrder hist ∧ Orderly net env before hist st

end Definitions

section Views

variable {net : SlotNetwork} {view : MainView} {ev : Event Eff Eff.Reply}

theorem mem_carried_after {ip_str : String} (h : ip_str ∈ (view.after net ev).carried) :
    ip_str ∈ view.carried ∨
      (∃ content, ev = ⟨.readFile (weightName ip_str), .ok content⟩ ∧ Draining content) ∨
      ∃ value, ev = ⟨.redis (.get (.backendWeight ip_str)), .ok (some value)⟩ ∧ Draining value := by
  unfold MainView.after at h
  split at h
  · exact absurd h List.not_mem_nil
  · unfold MainView.listed at h
    split at h <;> exact absurd h List.not_mem_nil
  · next name r =>
    rcases r with e | content
    · exact .inl h
    · by_cases hdraining : Draining content
      · rw [MainView.sawFile, if_pos hdraining] at h
        rcases List.mem_append.mp h with h | h
        · obtain rfl := weightFileIp_iff.mp (Option.mem_toList.mp h)
          exact .inr (.inl ⟨content, rfl, hdraining⟩)
        · exact .inl h
      · rw [MainView.sawFile, if_neg hdraining] at h
        exact .inl h
  · next ip_str' r =>
    rcases r with e | _ | value
    · exact absurd h List.not_mem_nil
    · exact absurd h List.not_mem_nil
    · by_cases hdraining : Draining value
      · simp only [MainView.sawKey, if_pos hdraining, List.mem_singleton] at h
        subst h
        exact .inr (.inr ⟨value, rfl, hdraining⟩)
      · simp [MainView.sawKey, if_neg hdraining] at h
  · unfold MainView.sawOwner at h
    split at h <;> exact .inl h
  · exact absurd h List.not_mem_nil
  · exact absurd h List.not_mem_nil
  · exact absurd h List.not_mem_nil
  · exact .inl h

/-- An owner that the snapshot pairs with a draining backend comes from the read of the owner. -/
theorem mem_doomed_after {p : String × String} (h : p ∈ (view.after net ev).doomed) :
    p ∈ view.doomed ∨ ∃ slot_str r, ev = ⟨.redis (.get (.owner slot_str)), r⟩ ∧
      p.1 = slotIp net slot_str ∧ p.1 ∈ view.carried ∧
        p.2 = (resolveOwner view.owner_cache (slotNumber slot_str) r).1 := by
  unfold MainView.after at h
  split at h
  · exact absurd h List.not_mem_nil
  · unfold MainView.listed at h
    split at h
    · exact .inl h
    · exact .inl h
    · exact absurd h List.not_mem_nil
    · exact absurd h List.not_mem_nil
    · exact absurd h List.not_mem_nil
  · unfold MainView.sawFile at h
    split at h
    · split at h <;> exact .inl h
    · exact .inl h
  · unfold MainView.sawKey at h
    split at h <;> exact .inl h
  · next slot_str r =>
    unfold MainView.sawOwner at h
    split at h
    · dsimp only at h
      split at h
      · next hcarried =>
        rcases List.mem_cons.mp h with rfl | h
        · exact .inr ⟨slot_str, r, rfl, rfl, hcarried, rfl⟩
        · exact .inl h
      · exact .inl h
    · exact .inl h
  · exact .inl h
  · exact .inl h
  · exact .inl h
  · exact .inl h

end Views

section Sound

variable [DecidableEq N] (net : SlotNetwork) (env : Surroundings N)
  (before : String → String → Prop)

/-- What shows draining after a history is genuine, and so is what a main task carries and what it
pairs with an owner. -/
structure Sound (hist : List (WorldStep N)) (w : World N) : Prop where
  files : ∀ i, (mainView net hist i).phase.InLoop → ∀ ip_str, w.Shows i ip_str →
    Genuine net env before hist w ip_str
  keys : ∀ ip_str, w.Persisted ip_str → Genuine net env before hist w ip_str
  carried : ∀ i, ∀ ip_str ∈ (mainView net hist i).carried, Genuine net env before hist w ip_str
  doomed : ∀ i, ∀ p ∈ (mainView net hist i).doomed, p.2 ≠ OWNER_MISSING → p.2 ≠ OWNER_UNKNOWN →
    Drained net env before hist p.1 p.2

end Sound

section Step

variable [DecidableEq N] {net : SlotNetwork} {env : Surroundings N}
  {before : String → String → Prop}
  {hist : List (WorldStep N)} {who : N × Task} {e : Eff} {s : World N × ℕ} {ip_str : String}

/-- The step in which a task performs an operation. -/
def Surroundings.stepOf (env : Surroundings N) (who : N × Task) (e : Eff) (s : World N × ℕ) :
    WorldStep N :=
  ⟨who, ⟨e, (env.handler who e s).1⟩, s⟩

theorem mainView_cons_self (i : N) : mainView net (env.stepOf (i, .main) e s :: hist) i =
    (mainView net hist i).after net ⟨e, (env.handler (i, .main) e s).1⟩ := by
  simp [mainView, taskView, protocolState, Surroundings.stepOf, Task.after]

theorem mainView_cons_of_ne {i : N} (h : who ≠ (i, .main)) :
    mainView net (env.stepOf who e s :: hist) i = mainView net hist i := by
  simp [mainView, taskView, protocolState, Surroundings.stepOf, h]

theorem disk_of_event {name content : String}
    (h : (env.stepOf who e s).event = ⟨.readFile name, .ok content⟩) :
    (env.world (env.stepOf who e s)).disk who.1 name = some content := by
  obtain rfl : e = .readFile name := congrArg Event.op h
  have hreply : (env.handler who (.readFile name) s).1 = .ok content := eq_of_heq (Event.mk.inj h).2
  exact readFile_perform (env.replies s.2 who.1) hreply

theorem strings_of_event {key : StringKey} {value : Option String}
    (h : (env.stepOf who e s).event = ⟨.redis (.get key), .ok value⟩) :
    (env.world (env.stepOf who e s)).redis.strings key = value := by
  obtain rfl : e = .redis (.get key) := congrArg Event.op h
  have hreply : (env.handler who (.redis (.get key)) s).1 = .ok value :=
    eq_of_heq (Event.mk.inj h).2
  exact get_perform who.1 (env.replies s.2 who.1) hreply

/-- While others move the world, a weight that is not settled stays genuine. -/
theorem Genuine.moved {st : WorldStep N} (h : Genuine net env before hist st.before.1 ip_str)
    (horder : Orderly net env before hist st) (hnot : ¬Settled net hist (env.world st) ip_str) :
    Genuine net env before hist (env.world st) ip_str := by
  rintro slot_str owner rfl howner
  rcases horder.holders slot_str owner howner with hsame | hsettled
  · exact h slot_str owner rfl hsame
  · exact absurd hsettled hnot

theorem Sound.moved {st : WorldStep N} (h : Sound net env before hist st.before.1)
    (horder : Orderly net env before hist st) : Sound net env before hist (env.world st) where
  files i hi ip_str hshows := by
    have hgenuine := h.files i hi ip_str (horder.files i hi ip_str hshows)
    exact hgenuine.moved horder fun hsettled => hsettled.files i hi hshows
  keys ip_str hkey := by
    have hgenuine := h.keys ip_str (horder.keys ip_str hkey)
    exact hgenuine.moved horder fun hsettled => hsettled.key hkey
  carried i ip_str hip :=
    (h.carried i ip_str hip).moved horder fun hsettled => hsettled.carried i hip
  doomed := h.doomed

theorem owner_of_step (hallows : who.2.Allows (taskView net hist who) e) {slot_str owner : String}
    (h : (env.handler who e s).2.1.redis.owner slot_str = some owner) :
    (env.world (env.stepOf who e s)).redis.owner slot_str = some owner := by
  rcases strings_perform h with hsame | rfl
  · exact hsame
  · obtain ⟨i, task⟩ := who
    cases task <;> cases hallows

theorem Genuine.step (h : Genuine net env before hist (env.world (env.stepOf who e s)) ip_str)
    (hallows : who.2.Allows (taskView net hist who) e) :
    Genuine net env before (env.stepOf who e s :: hist) (env.handler who e s).2.1 ip_str :=
  fun slot_str owner hslot howner => .inl (h slot_str owner hslot (owner_of_step hallows howner))

/-- A weight key shows draining after a step if it did before or the main task carried the value. -/
theorem persisted_of_step (hallows : who.2.Allows (taskView net hist who) e)
    (h : (env.handler who e s).2.1.Persisted ip_str) :
    (env.world (env.stepOf who e s)).Persisted ip_str ∨
      ip_str ∈ (mainView net hist who.1).carried := by
  obtain ⟨value, hvalue, hdraining⟩ := h
  rcases strings_perform hvalue with hsame | rfl
  · exact .inl ⟨value, hsame, hdraining⟩
  · obtain ⟨i, task⟩ := who
    cases task with
    | main => exact .inr (hallows hdraining)
    | listener => cases hallows

/-- A weight file shows draining after a step if it did before, the main task carried the value, or
the step drains whoever holds the slot. -/
theorem shows_of_step (hallows : who.2.Allows (taskView net hist who) e) {i : N}
    (h : (env.handler who e s).2.1.Shows i ip_str) :
    (env.world (env.stepOf who e s)).Shows i ip_str ∨ ip_str ∈ (mainView net hist who.1).carried ∨
      Genuine net env before (env.stepOf who e s :: hist) (env.handler who e s).2.1 ip_str := by
  obtain ⟨content, hcontent, hdraining⟩ := h
  rcases disk_perform hcontent with hsame | ⟨-, heffect, rfl⟩
  · exact .inl ⟨content, hsame, hdraining⟩
  · right
    obtain ⟨j, task⟩ := who
    cases task with
    | listener => exact absurd hdraining hallows
    | main =>
      rcases hallows hdraining with ⟨hphase, rfl⟩ | hcarried
      · right
        intro slot_str owner hslot howner
        exact .inr ⟨rfl, hphase, rfl, heffect, slot_str, hslot, owner_of_step hallows howner⟩
      · exact .inl (hcarried ip_str (weightFileIp_iff.mpr rfl))

/-- What a main task carries is genuine once it was read. -/
theorem Sound.carried_step (h : Sound net env before hist (env.world (env.stepOf who e s)))
    (hallows : who.2.Allows (taskView net hist who) e) (i : N)
    (hip : ip_str ∈ (mainView net (env.stepOf who e s :: hist) i).carried) :
    Genuine net env before hist (env.world (env.stepOf who e s)) ip_str := by
  by_cases hwho : who = (i, .main)
  · subst hwho
    rw [mainView_cons_self] at hip
    rcases mem_carried_after hip with hip | ⟨content, hev, hdraining⟩ | ⟨value, hev, hdraining⟩
    · exact h.carried i ip_str hip
    · have hdisk := disk_of_event hev
      obtain rfl : e = .readFile (weightName ip_str) := congrArg Event.op hev
      exact h.files i hallows ip_str ⟨content, hdisk, hdraining⟩
    · exact h.keys ip_str ⟨value, strings_of_event hev, hdraining⟩
  · rw [mainView_cons_of_ne hwho] at hip
    exact h.carried i ip_str hip

/-- The owner that is paired with a draining backend holds its slot when it is read, or is the
cached one that still does. -/
theorem Sound.doomed_step (h : Sound net env before hist (env.world (env.stepOf who e s)))
    (horder : Orderly net env before hist (env.stepOf who e s)) (i : N) {p : String × String}
    (hp : p ∈ (mainView net (env.stepOf who e s :: hist) i).doomed) (hmissing : p.2 ≠ OWNER_MISSING)
    (hunknown : p.2 ≠ OWNER_UNKNOWN) : Drained net env before hist p.1 p.2 := by
  by_cases hwho : who = (i, .main)
  · subst hwho
    rw [mainView_cons_self] at hp
    rcases mem_doomed_after hp with hp | ⟨slot_str, r, hev, hslot, hcarried, howner⟩
    · exact h.doomed i p hp hmissing hunknown
    · have hholder : (env.world (env.stepOf (i, .main) e s)).redis.owner slot_str = some p.2 := by
        rcases r with text | _ | owner
        · have hcached := horder.cached slot_str text rfl hev (hslot ▸ hcarried)
          rw [howner, resolveOwner] at hunknown ⊢
          cases hcache : (mainView net hist i).owner_cache (slotNumber slot_str) with
          | none => simp [hcache] at hunknown
          | some owner => exact hcached owner hcache
        · exact absurd howner hmissing
        · rw [howner]
          exact strings_of_event hev
      exact h.carried i p.1 hcarried slot_str p.2 hslot.symm hholder
  · rw [mainView_cons_of_ne hwho] at hp
    exact h.doomed i p hp hmissing hunknown

theorem Sound.step (h : Sound net env before hist (env.world (env.stepOf who e s)))
    (hallows : who.2.Allows (taskView net hist who) e)
    (horder : Orderly net env before hist (env.stepOf who e s)) :
    Sound net env before (env.stepOf who e s :: hist) (env.handler who e s).2.1 where
  files i hi ip_str hshows := by
    rcases shows_of_step hallows hshows with hshows | hcarried | hgenuine
    · refine Genuine.step ?_ hallows
      by_cases hloop : (mainView net hist i).phase.InLoop
      · exact h.files i hloop ip_str hshows
      · by_cases hwho : who = (i, .main)
        · subst hwho
          rw [mainView_cons_self] at hi
          exact horder.start rfl hloop hi ip_str hshows
        · rw [mainView_cons_of_ne hwho] at hi
          exact absurd hi hloop
    · exact (h.carried _ ip_str hcarried).step hallows
    · exact hgenuine
  keys ip_str hkey := by
    rcases persisted_of_step hallows hkey with hkey | hcarried
    · exact (h.keys ip_str hkey).step hallows
    · exact (h.carried _ ip_str hcarried).step hallows
  carried i ip_str hip := (h.carried_step hallows i hip).step hallows
  doomed i p hp hmissing hunknown := .inl (h.doomed_step horder i hp hmissing hunknown)

end Step

section Run

variable [DecidableEq N] [Scalar F] {cluster : Cluster F N} {env : Surroundings N}
  {before : String → String → Prop} {hist : List (WorldStep N)} {threads : N × Task → Daemon Unit}
  {s₀ s : World N × ℕ}

theorem task_allows (run : Interleaved env.handler cluster.task s₀ hist threads s)
    (who : N × Task) :
    Follows who.2.Allows (who.2.after cluster.net) (taskView cluster.net hist who) (threads who) :=
  run.follows (fun who => cluster.same_net who.1 ▸ (cluster.nodes who.1).task_keeps who.2) who

theorem sound_of_run (hkeys : ∀ ip_str, s₀.1.Persisted ip_str →
      Genuine cluster.net env before [] s₀.1 ip_str)
    (run : Interleaved env.handler cluster.task s₀ hist threads s)
    (horder : InOrder cluster.net env before hist) : Sound cluster.net env before hist s.1 := by
  induction run with
  | start =>
    exact ⟨fun i hi => False.elim hi, hkeys, fun i ip_str hip => absurd hip List.not_mem_nil,
      fun i p hp => absurd hp List.not_mem_nil⟩
  | @step hist threads s run who e k hwho ih =>
    have hfollows := task_allows run who
    rw [hwho] at hfollows
    have hmoved : Sound cluster.net env before hist (env.world (env.stepOf who e s)) :=
      Sound.moved (ih horder.1) horder.2
    exact hmoved.step hfollows.1 horder.2

/-- When no other program moves the world, no request fails and nothing shows draining at the start,
the surroundings keep to the order: each file that shows draining is genuine, on running nodes and
on others. -/
theorem inOrder_of_calm (hmoves : ∀ n w, env.moves n w = w) (hcalm : ∀ n, env.failure n = none)
    (hfiles : ∀ i ip_str, ¬s₀.1.Shows i ip_str) (hkeys : ∀ ip_str, ¬s₀.1.Persisted ip_str)
    (run : Interleaved env.handler cluster.task s₀ hist threads s) :
    InOrder cluster.net env before hist ∧
      ∀ i ip_str, s.1.Shows i ip_str → Genuine cluster.net env before hist s.1 ip_str := by
  induction run with
  | start => exact ⟨trivial, fun i ip_str h => absurd h (hfiles i ip_str)⟩
  | @step hist threads s run who e k hwho ih =>
    have hsound : Sound cluster.net env before hist s.1 :=
      sound_of_run (fun ip_str h => absurd h (hkeys ip_str)) run ih.1
    have hfollows := task_allows run who
    rw [hwho] at hfollows
    have hworld : env.world (env.stepOf who e s) = s.1 := hmoves _ _
    refine ⟨⟨ih.1, ?_⟩, fun i ip_str hshows => ?_⟩
    · show Orderly cluster.net env before hist (env.stepOf who e s)
      refine ⟨fun i _ ip_str h => ?_, fun ip_str h => ?_, fun slot_str owner h => .inl ?_,
        fun _ _ _ ip_str h => ?_, fun slot_str text _ hev => ?_⟩
      · rwa [hworld] at h
      · rwa [hworld] at h
      · rwa [hworld] at h
      · rw [hworld] at h ⊢
        exact ih.2 _ ip_str h
      · obtain rfl : e = .redis (.get (.owner slot_str)) := congrArg Event.op hev
        have hreply : (env.handler who (.redis (.get (.owner slot_str))) s).1 = .error text :=
          eq_of_heq (Event.mk.inj hev).2
        simp [Surroundings.handler, hcalm, World.perform] at hreply
    · rcases shows_of_step hfollows.1 hshows with h | h | h
      · refine Genuine.step ?_ hfollows.1
        rw [hworld] at h ⊢
        exact ih.2 i ip_str h
      · refine Genuine.step ?_ hfollows.1
        rw [hworld]
        exact hsound.carried _ ip_str h
      · exact h

/-- In a run of any number of nodes, where weight files and keys are arbitrary at the start and any
request may fail, section 2.1 terminates only lease owners that were drained while they held their
slot, if the keys that show draining at the start are genuine and the surroundings keep to the
order. -/
theorem onlyDrainedRetired_of_inOrder (cluster : Cluster F N) (env : Surroundings N)
    (before : String → String → Prop) {hist : List (WorldStep N)}
    {threads : N × Task → Daemon Unit} {s₀ s : World N × ℕ}
    (hkeys : ∀ ip_str, s₀.1.Persisted ip_str → Genuine cluster.net env before [] s₀.1 ip_str)
    (run : Interleaved env.handler cluster.task s₀ hist threads s)
    (horder : InOrder cluster.net env before hist) :
    OnlyDrainedRetired cluster.net env before hist := by
  induction run with
  | start => trivial
  | @step hist threads s run who e k hwho ih =>
    refine ⟨ih horder.1, fun owner decrement hmain hop hleased => ?_⟩
    have hsound := sound_of_run hkeys run horder.1
    have hfollows := task_allows run who
    rw [hwho] at hfollows
    obtain ⟨i, task⟩ := who
    obtain rfl : task = .main := hmain
    obtain rfl : e = .terminateInstance owner decrement := hop
    obtain ⟨ip_str, hwritten, hdoomed, hmissing, hunknown⟩ := hfollows.1 hleased
    exact ⟨ip_str, hwritten, hsound.doomed i _ hdoomed hmissing hunknown⟩

end Run

theorem Drained.write [DecidableEq N] {net : SlotNetwork} {env : Surroundings N}
    {before : String → String → Prop} {hist : List (WorldStep N)} {ip_str owner : String}
    (h : Drained net env before hist ip_str owner) : before ip_str owner ∨
      ∃ st ∈ hist, st.event.op = .writeFile (weightName ip_str) WEIGHT_DRAINING := by
  induction hist with
  | nil => exact .inl h
  | cons st hist ih =>
    rcases h with h | h
    · rcases ih h with hbefore | ⟨st', hst', hop⟩
      · exact .inl hbefore
      · exact .inr ⟨st', List.mem_cons_of_mem _ hst', hop⟩
    · exact .inr ⟨st, List.mem_cons_self, h.write⟩

section Example

/-- One node, with its main task running for two cycles. -/
def soloCluster : Cluster ℚ Unit := ⟨exampleNet, fun _ => exampleNode 2, fun _ => rfl⟩

/-- Slots 0 and 1 are leased, and the weight file of each has the same content. -/
def twoLeases (weight : String) (ts : Option String) : World Unit where
  disk _ name :=
    if name = "backend-10.0.0.20.weight" ∨ name = "backend-10.0.0.21.weight" then some weight
    else none
  redis :=
    let db := (((Redis.empty.zadd .leases "0" 2000).zadd .leases "1" 2000).set
      (.owner "0") "i-a").set (.owner "1") "i-b"
    ts.elim db (db.set .backendWeightsTs)

/-- Nothing else moves and nothing fails: the node is master, both instances are in service, and no
connection is open. -/
def quietSurroundings : Surroundings Unit where
  moves _ w := w
  failure _ := none
  replies
    | _, _, .ipAddrShow => some "inet 10.0.0.1/24"
    | _, _, .readDir => .ok ⟨["backend-10.0.0.20.weight", "backend-10.0.0.21.weight"], none⟩
    | _, _, .describeAsg => .ok
        [⟨"pool", 3, 1, 4, [⟨"i-a", "InService", "Healthy"⟩, ⟨"i-b", "InService", "Healthy"⟩]⟩]
    | _, _, .readIpvs => .ok "-> 0A000014:0050 Masq 1 0 0\n-> 0A000015:0050 Masq 1 0 0"
    | _, _, e => okReply e

theorem twoLeases_not_persisted (weight : String) (ts : Option String) (ip_str : String) :
    ¬(twoLeases weight ts).Persisted ip_str := by
  rintro ⟨value, hvalue, -⟩
  cases ts <;> simp [twoLeases, Redis.set, Redis.zadd, Redis.empty] at hvalue

/-- The history in which the main task takes a number of turns. -/
def soloRun (weight : String) (ts : Option String) (turns : ℕ) :=
  play quietSurroundings.handler soloCluster.task (twoLeases weight ts, 0)
    (List.replicate turns ((), .main))

/-- The first cycle drains the instance `i-a`, and the second terminates it. -/
theorem retires_drained :
    OnlyDrainedRetired exampleNet quietSurroundings (fun _ _ => False) (soloRun "0" none 35).1 ∧
      ∃ st ∈ (soloRun "0" none 35).1, st.event.op = .terminateInstance "i-a" true := by
  have hkeys := twoLeases_not_persisted "0" none
  have hfiles : ∀ i ip_str, ¬(twoLeases "0" none).Shows i ip_str := by
    rintro i ip_str ⟨content, hcontent, hdraining⟩
    obtain ⟨-, rfl⟩ : _ ∧ "0" = content := by simpa [twoLeases] using hcontent
    exact not_draining_active hdraining
  have hrun := interleaved_play quietSurroundings.handler soloCluster.task (twoLeases "0" none, 0)
    (List.replicate 35 ((), .main))
  have honly := onlyDrainedRetired_of_inOrder soloCluster quietSurroundings (fun _ _ => False)
    (fun ip_str h => absurd h (hkeys ip_str)) hrun
    (inOrder_of_calm (fun _ _ => rfl) (fun _ => rfl) hfiles hkeys hrun).1
  exact ⟨honly, by decide +kernel⟩

/-- The weight files are as keepalived initialised them, and the persisted state is fresh but has no
key for the backends.  The first cycle terminates an instance that was never drained. -/
theorem retires_undrained : ¬ ∀ (cluster : Cluster ℚ Unit) (env : Surroundings Unit)
    (s₀ : World Unit × ℕ), (∀ ip_str, ¬s₀.1.Persisted ip_str) → ∀ hist threads s,
      Interleaved env.handler cluster.task s₀ hist threads s →
        OnlyDrainedRetired cluster.net env (fun _ _ => False) hist := by
  intro h
  have honly := h soloCluster quietSurroundings (twoLeases "-1" (some "0"), 0)
    (twoLeases_not_persisted _ _) _ _ _
      (interleaved_play _ _ _ (((), .main) :: List.replicate 14 ((), .main)))
  have hnext : ((soloRun "-1" (some "0") 14).2.1 ((), .main)).nextOp =
      some (.terminateInstance "i-a" true) := by decide +kernel
  have hleased : "i-a" ∈ (mainView exampleNet (soloRun "-1" (some "0") 14).1 ()).leased := by
    decide +kernel
  have hwritten : (mainView exampleNet (soloRun "-1" (some "0") 14).1 ()).written =
      some "10.0.0.20" := by decide +kernel
  have hnone : ∀ st ∈ (soloRun "-1" (some "0") 14).1,
      st.event.op ≠ .writeFile (weightName "10.0.0.20") WEIGHT_DRAINING := by decide +kernel
  rw [play_cons hnext] at honly
  obtain ⟨ip_str, hip, hdrained⟩ := honly.2 "i-a" true rfl rfl hleased
  obtain rfl : "10.0.0.20" = ip_str := Option.some.inj (hwritten.symm.trans hip)
  rcases hdrained.write with hbefore | ⟨st, hst, hop⟩
  · exact hbefore
  · exact hnone st hst hop

end Example

end Aerosuite.Scale
