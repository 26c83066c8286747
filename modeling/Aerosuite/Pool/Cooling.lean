import Aerosuite.Pool.LuaRuns

/-! Which slot a claim of `aeroslot-lua` takes.  The score of a free slot is the time at which a
release or a sweep freed it, and 0 before that, so the slot that Redis offers first is the one that
has been free the longest. -/

namespace Aerosuite.Pool

variable {σ : Type} [Zero σ] [Add σ] [LinearOrder σ]

/-- When a script freed the slot: a successful release or a sweep, at its timestamp. -/
def Entry.freed (e : Entry σ) (slot : String) : Option σ :=
  match e.script, e.reply with
  | .release s _ now, .count 1 => if slot = s then some now else none
  | .claim now _ _, _ => if slot ∈ (e.before.sets .leases).upTo now then some now else none
  | _, _ => none

/-- The time at which the slot was last freed, and 0 when nothing has freed it. -/
def lastFreed (h : List (Entry σ)) (slot : String) : σ := (h.findSome? (·.freed slot)).getD 0

/-- The slot is free once the leases that have expired at `now` are reclaimed. -/
def Redis.FreeAt (db : Redis σ) (now : σ) (slot : String) : Prop :=
  (db.score .available slot).isSome ∨ ∃ expiry, db.score .leases slot = some expiry ∧ expiry ≤ now

section Step

variable {h : List (Entry σ)} {db : Redis σ} {slots : String → SlotState σ} {slot : String}

omit [Add σ] in
theorem lastFreed_cons_of_some {e : Entry σ} {t : σ} (hfreed : e.freed slot = some t) :
    lastFreed (e :: h) slot = t := by
  simp [lastFreed, hfreed]

omit [Add σ] in
theorem lastFreed_cons_of_none {e : Entry σ} (hfreed : e.freed slot = none) :
    lastFreed (e :: h) slot = lastFreed h slot := by
  simp [lastFreed, hfreed]

omit [Zero σ] [Add σ] in
theorem Represents.freeAt (h : Represents db slots) (now : σ) (slot : String) :
    db.FreeAt now slot ↔ ∃ since, (slots slot).sweep now = .free since := by
  rw [Redis.FreeAt, h.available, h.lease]
  cases slots slot with
  | absent => simp [SlotState.available, SlotState.lease, SlotState.sweep]
  | free since => simp [SlotState.available, SlotState.sweep]
  | held owner expiry =>
    by_cases hexp : expiry ≤ now <;>
      simp [SlotState.available, SlotState.lease, SlotState.sweep, hexp]

/-- How a script can leave a slot free: it freed it, it found it free and did not free it, or it
entered it into the pool. -/
theorem Represents.free_after (h : Represents db slots) (script : Script σ) {since : σ}
    (hafter : (slots slot).after slot script (script.run db).1 = .free since) :
    Entry.freed ⟨db, script, (script.run db).1⟩ slot = some since ∨
      (Entry.freed ⟨db, script, (script.run db).1⟩ slot = none ∧
        (slots slot = .free since ∨ slots slot = .absent ∧ since = 0)) := by
  generalize (script.run db).1 = reply at hafter
  cases script with
  | init min max =>
    refine Or.inr ⟨rfl, ?_⟩
    simp only [SlotState.after] at hafter
    cases hst : slots slot with
    | absent =>
      rw [hst] at hafter
      split at hafter
      · exact Or.inr ⟨rfl, (SlotState.free.inj hafter).symm⟩
      · cases hafter
    | free t => simpa [hst, SlotState.enter] using hafter
    | held owner expiry => simp [hst, SlotState.enter] at hafter
  | claim now instance_id ttl_ms =>
    have hsweep : (slots slot).sweep now = .free since := by
      rcases reply with n | (_ | s)
      · exact hafter
      · exact hafter
      · simp only [SlotState.after] at hafter
        split at hafter
        · cases hafter
        · exact hafter
    by_cases hx : (slots slot).Expired now
    · rw [SlotState.sweep_of_expired hx] at hsweep
      rw [← SlotState.free.inj hsweep]
      exact Or.inl (if_pos ((h.mem_upTo now slot).mpr hx))
    · rw [SlotState.sweep_of_not_expired hx] at hsweep
      exact Or.inr ⟨if_neg (mt (h.mem_upTo now slot).mp hx), Or.inl hsweep⟩
  | renew s instance_id now ttl_ms =>
    refine Or.inr ⟨rfl, Or.inl ?_⟩
    by_cases hs : reply = .count 1 ∧ slot = s
    · obtain ⟨rfl, rfl⟩ := hs
      simp [SlotState.after] at hafter
    · unfold SlotState.after at hafter
      split at hafter <;> simp_all
  | release s instance_id now =>
    by_cases hs : reply = .count 1 ∧ slot = s
    · obtain ⟨rfl, rfl⟩ := hs
      simp only [SlotState.after, if_true] at hafter
      rw [← SlotState.free.inj hafter]
      exact Or.inl (if_pos rfl)
    · refine Or.inr ⟨?_, Or.inl ?_⟩
      · unfold Entry.freed
        split <;> simp_all
      · unfold SlotState.after at hafter
        split at hafter <;> simp_all

/-- A script that leaves a slot unknown neither knew nor freed it. -/
theorem Represents.absent_after (h : Represents db slots) (script : Script σ)
    (hafter : (slots slot).after slot script (script.run db).1 = .absent) :
    slots slot = .absent ∧ Entry.freed ⟨db, script, (script.run db).1⟩ slot = none := by
  have hfirst : slots slot = .absent := by
    by_contra hne
    have hpooled := (slotStep h script slot).pooled.mpr (Or.inr hne)
    exact hpooled hafter
  have hlease : ∀ now, slot ∉ (db.sets .leases).upTo now := fun now hmem => by
    have hexpired := (h.mem_upTo now slot).mp hmem
    rw [hfirst] at hexpired
    exact hexpired
  refine ⟨hfirst, ?_⟩
  rw [hfirst] at hafter
  generalize (script.run db).1 = reply at hafter
  unfold Entry.freed
  split
  · next heq _ =>
    obtain rfl : script = _ := heq
    simp_all [SlotState.after]
  · exact if_neg (hlease _)
  · rfl

theorem Entry.Claimed.after {e : Entry σ} (hclaim : e.Claimed slot) (st : SlotState σ) :
    ∃ instance_id expiry, st.after slot e.script e.reply = .held instance_id expiry := by
  obtain ⟨instance_id, _, now, ttl_ms, hscript, hreply, -⟩ := hclaim
  rw [hscript, hreply]
  exact ⟨instance_id, now + ttl_ms, if_pos rfl⟩

/-- What a history tells of a slot that is not held. -/
def Cooled (h : List (Entry σ)) (slot : String) : SlotState σ → Prop
  | .absent => ∀ e ∈ h, e.freed slot = none ∧ ¬ e.Claimed slot
  | .free since => since = lastFreed h slot ∧
      ((∀ e ∈ h, e.freed slot = none) → ∀ e ∈ h, ¬ e.Claimed slot)
  | .held _ _ => True

end Step

/-- A free slot has been free since it was last freed, and a slot that nothing has freed has never
been leased. -/
theorem LuaRun.cooled {h : List (Entry σ)} {db : Redis σ} (run : LuaRun h db) (slot : String) :
    Cooled h slot (tenancy h slot) := by
  induction run with
  | start => simp [tenancy, Cooled]
  | @step h db run script ih =>
    have hrep := run.represents
    have hnot : ∀ st', (tenancy h slot).after slot script (script.run db).1 = st' →
        (∀ instance_id expiry, st' ≠ .held instance_id expiry) →
        ¬ Entry.Claimed ⟨db, script, (script.run db).1⟩ slot := by
      rintro st' hafter hheld hclaim
      obtain ⟨instance_id, expiry, heq⟩ := hclaim.after (tenancy h slot)
      exact hheld instance_id expiry (hafter.symm.trans heq)
    rw [tenancy]
    generalize hafter : (tenancy h slot).after slot script (script.run db).1 = st'
    have hclaim := hnot st' hafter
    cases st' with
    | absent =>
      obtain ⟨hfirst, hfreed⟩ := hrep.absent_after script hafter
      rw [hfirst] at ih
      intro e he
      rcases List.mem_cons.mp he with rfl | he
      · exact ⟨hfreed, hclaim (by simp)⟩
      · exact ih e he
    | free since =>
      rcases hrep.free_after script hafter with hfreed | ⟨hfreed, hst | ⟨hst, rfl⟩⟩
      · refine ⟨(lastFreed_cons_of_some hfreed).symm, fun hnone => ?_⟩
        rw [hnone _ List.mem_cons_self] at hfreed
        cases hfreed
      · rw [hst] at ih
        refine ⟨ih.1.trans (lastFreed_cons_of_none hfreed).symm, fun hnone e he => ?_⟩
        rcases List.mem_cons.mp he with rfl | he
        · exact hclaim (by simp)
        · exact ih.2 (fun f hf => hnone f (List.mem_cons_of_mem _ hf)) e he
      · rw [hst] at ih
        have hnone : h.findSome? (·.freed slot) = none :=
          List.findSome?_eq_none_iff.mpr fun e he => (ih e he).1
        refine ⟨?_, fun _ e he => ?_⟩
        · rw [lastFreed_cons_of_none hfreed, lastFreed, hnone]
          rfl
        · rcases List.mem_cons.mp he with rfl | he
          · exact hclaim (by simp)
          · exact (ih e he).2
    | held owner expiry => trivial

/-- The history after a claim. -/
def claimedHistory (h : List (Entry σ)) (db : Redis σ) (now : σ) (instance_id : String)
    (ttl_ms : σ) : List (Entry σ) :=
  ⟨db, .claim now instance_id ttl_ms, ((Script.claim now instance_id ttl_ms).run db).1⟩ :: h

/-- What a claim at `now` that returns `slot` does, `db'` being the database after it and `freed`
the last-freed times. -/
structure TakesCoolest (db db' : Redis σ) (freed : String → σ) (now : σ) (instance_id : String)
    (ttl_ms : σ) (slot : String) : Prop where
  free : db.FreeAt now slot
  coolest : ∀ s, db.FreeAt now s → freed slot ≤ freed s
  lease : db'.score .leases slot = some (now + ttl_ms)
  owner : db'.owner slot = some instance_id
  taken : db'.score .available slot = none
  swept : ∀ s ≠ slot, ∀ expiry, db.score .leases s = some expiry → expiry ≤ now →
    db'.score .available s = some now ∧ db'.score .leases s = none ∧ db'.owner s = none
  leased : ∀ s expiry, db.score .leases s = some expiry → now < expiry →
    db'.score .leases s = some expiry ∧ db'.owner s = db.owner s ∧ db'.score .available s = none
  waiting : ∀ s ≠ slot, ∀ since, db.score .available s = some since →
    db'.score .available s = some since ∧ db'.score .leases s = none

section Claim

variable {h : List (Entry σ)} {db : Redis σ} {now ttl_ms : σ} {instance_id : String}

/-- The score with which a claim finds a slot free is the time that the slot was last freed. -/
theorem LuaRun.lastFreed_of_free (run : LuaRun h db) {slot : String} {since : σ}
    (hfree : (tenancy h slot).sweep now = .free since) :
    lastFreed (claimedHistory h db now instance_id ttl_ms) slot = since := by
  have hmem := run.represents.mem_upTo now slot
  by_cases hx : (tenancy h slot).Expired now
  · rw [SlotState.sweep_of_expired hx] at hfree
    rw [← SlotState.free.inj hfree]
    exact lastFreed_cons_of_some (if_pos (hmem.mpr hx))
  · rw [SlotState.sweep_of_not_expired hx] at hfree
    have hcooled := run.cooled slot
    rw [hfree] at hcooled
    have hfreed : Entry.freed ⟨db, .claim now instance_id ttl_ms,
        ((Script.claim now instance_id ttl_ms).run db).1⟩ slot = none := if_neg (mt hmem.mp hx)
    exact (lastFreed_cons_of_none hfreed).trans hcooled.1.symm

/-- A slot that is free at a claim and was never freed has never been leased. -/
theorem LuaRun.never_leased (run : LuaRun h db) {slot : String} (hfree : db.FreeAt now slot)
    (hnone : ∀ e ∈ claimedHistory h db now instance_id ttl_ms, e.freed slot = none) :
    ∀ e ∈ h, ¬ e.Claimed slot := by
  obtain ⟨since, hsweep⟩ := (run.represents.freeAt now slot).mp hfree
  have hx : ¬ (tenancy h slot).Expired now := fun hx => by
    have hfreed := hnone _ List.mem_cons_self
    have hmem := (run.represents.mem_upTo now slot).mpr hx
    simp [Entry.freed, hmem] at hfreed
  rw [SlotState.sweep_of_not_expired hx] at hsweep
  have hcooled := run.cooled slot
  rw [hsweep] at hcooled
  exact hcooled.2 fun e he => hnone e (List.mem_cons_of_mem _ he)

/-- A claim that returns no slot finds every slot of the pool under an unexpired lease. -/
theorem LuaRun.exhausted (run : LuaRun h db)
    (hleast : ((db.sweep now ((db.sets .leases).upTo now)).sets .available).least = none)
    (slot : String) (hpooled : db.Pooled slot) :
    ∃ expiry, db.score .leases slot = some expiry ∧ now < expiry := by
  have hrep := run.represents
  have havailable := SortedSet.least_eq_none_iff.mp hleast slot
  have hsweep := (hrep.sweep now).available slot
  rw [Redis.score, havailable] at hsweep
  have hne := (hrep.pooled slot).mp hpooled
  rw [hrep.lease]
  cases hst : tenancy h slot with
  | absent => exact absurd hst hne
  | free since => simp [hst, SlotState.sweep, SlotState.available] at hsweep
  | held owner expiry =>
    refine ⟨expiry, rfl, ?_⟩
    by_contra hle
    simp [hst, SlotState.sweep, SlotState.available, not_lt.mp hle] at hsweep

/-- What the slots other than the one that a claim returns become. -/
theorem SlotState.after_claim {slot s : String} (hs : s ≠ slot) (st : SlotState σ) :
    st.after s (.claim now instance_id ttl_ms) (.slot (some slot)) = st.sweep now := if_neg hs

theorem LuaRun.takesCoolest (run : LuaRun h db) {slot : String} {since : σ}
    (hleast : ((db.sweep now ((db.sets .leases).upTo now)).sets .available).least =
      some (slot, since))
    (hreply : ((Script.claim now instance_id ttl_ms).run db).1 = .slot (some slot)) :
    TakesCoolest db ((Script.claim now instance_id ttl_ms).run db).2
      (lastFreed (claimedHistory h db now instance_id ttl_ms)) now instance_id ttl_ms slot := by
  have hrep := run.represents
  obtain ⟨hfree, hmin⟩ := (hrep.sweep now).least hleast
  have hafter := Script.represents (.claim now instance_id ttl_ms) hrep
  rw [hreply] at hafter
  have htaken : (tenancy h slot).after slot (.claim now instance_id ttl_ms) (.slot (some slot)) =
      .held instance_id (now + ttl_ms) := if_pos rfl
  have hother : ∀ s ≠ slot,
      ((Script.claim now instance_id ttl_ms).run db).2.score .available s =
        ((tenancy h s).sweep now).available ∧
      ((Script.claim now instance_id ttl_ms).run db).2.score .leases s =
        ((tenancy h s).sweep now).lease ∧
      ((Script.claim now instance_id ttl_ms).run db).2.owner s =
        ((tenancy h s).sweep now).owner := fun s hs => by
    rw [hafter.available, hafter.lease, hafter.owner, SlotState.after_claim hs]
    exact ⟨rfl, rfl, rfl⟩
  constructor
  case free => exact (hrep.freeAt now slot).mpr ⟨since, hfree⟩
  case coolest =>
    intro s hs
    obtain ⟨since', hfree'⟩ := (hrep.freeAt now s).mp hs
    rw [run.lastFreed_of_free hfree, run.lastFreed_of_free hfree']
    exact hmin s since' hfree'
  case lease => rw [hafter.lease, htaken]; rfl
  case owner => rw [hafter.owner, htaken]; rfl
  case taken => rw [hafter.available, htaken]; rfl
  case swept =>
    intro s hs expiry hlease hle
    have hx : (tenancy h s).Expired now :=
      SlotState.expired_iff.mpr ⟨expiry, (hrep.lease s).symm.trans hlease, hle⟩
    obtain ⟨ha, hl, ho⟩ := hother s hs
    rw [SlotState.sweep_of_expired hx] at ha hl ho
    exact ⟨ha, hl, ho⟩
  case leased =>
    intro s expiry hlease hlt
    have hheld := (hrep.lease s).symm.trans hlease
    have hx : ¬ (tenancy h s).Expired now := fun hx => by
      obtain ⟨expiry', hlease', hle⟩ := SlotState.expired_iff.mp hx
      obtain rfl := Option.some.inj (hheld.symm.trans hlease')
      exact absurd hle (not_le.mpr hlt)
    have hs : s ≠ slot := by
      rintro rfl
      rw [SlotState.sweep_of_not_expired hx] at hfree
      simp [hfree, SlotState.lease] at hheld
    obtain ⟨ha, hl, ho⟩ := hother s hs
    rw [SlotState.sweep_of_not_expired hx] at ha hl ho
    refine ⟨hl.trans hheld, ho.trans (hrep.owner s).symm, ha.trans ?_⟩
    cases hst : tenancy h s <;> simp_all [SlotState.lease, SlotState.available]
  case waiting =>
    intro s hs since' hscore
    have hst := SlotState.available_eq_some ((hrep.available s).symm.trans hscore)
    obtain ⟨ha, hl, -⟩ := hother s hs
    rw [hst] at ha hl
    exact ⟨ha, hl⟩

/-- A claim fails only in a pool whose slots all have unexpired leases, and otherwise takes the
slot that has been free the longest. -/
theorem lua_claim_takes_coolest (run : LuaRun h db) (now ttl_ms : σ) (instance_id : String) :
    ((((Script.claim now instance_id ttl_ms).run db).1 = .slot none ∧
        ∀ slot, db.Pooled slot → ∃ expiry, db.score .leases slot = some expiry ∧ now < expiry) ∨
      ∃ slot, ((Script.claim now instance_id ttl_ms).run db).1 = .slot (some slot) ∧
        TakesCoolest db ((Script.claim now instance_id ttl_ms).run db).2
          (lastFreed (claimedHistory h db now instance_id ttl_ms)) now instance_id ttl_ms slot) ∧
    ∀ slot, db.FreeAt now slot →
      (∀ e ∈ claimedHistory h db now instance_id ttl_ms, e.freed slot = none) →
      ∀ e ∈ h, ¬ e.Claimed slot := by
  refine ⟨?_, fun slot hfree hnone => run.never_leased hfree hnone⟩
  have hrun := run_claim db now instance_id ttl_ms
  cases hleast : ((db.sweep now ((db.sets .leases).upTo now)).sets .available).least with
  | none =>
    rw [hleast] at hrun
    exact Or.inl ⟨by rw [hrun], run.exhausted hleast⟩
  | some entry =>
    obtain ⟨slot, since⟩ := entry
    rw [hleast] at hrun
    have hreply : ((Script.claim now instance_id ttl_ms).run db).1 = .slot (some slot) := by
      rw [hrun]
    exact Or.inr ⟨slot, hreply, run.takesCoolest hleast hreply⟩

/-- Slot 0 was leased until 10, so a claim of "b" at 20 takes slot 1, which nobody has leased. -/
theorem lua_claim_takes_coolest_two_slots :
    ((Script.claim 20 "b" 5).run (runScripts [Script.claim 0 "a" 10, .init 0 1]).2).1 =
      .slot (some "1") ∧
    TakesCoolest (runScripts [Script.claim 0 "a" 10, .init 0 1]).2
      ((Script.claim 20 "b" 5).run (runScripts [Script.claim 0 "a" 10, .init 0 1]).2).2
      (lastFreed (claimedHistory (runScripts [Script.claim 0 "a" 10, .init 0 1]).1
        (runScripts [Script.claim 0 "a" 10, .init 0 1]).2 20 "b" 5)) 20 "b" 5 "1" := by
  have hone : ((Script.claim 20 "b" 5).run (runScripts [Script.claim 0 "a" 10, .init 0 1]).2).1 =
      .slot (some "1") := by decide
  have law := lua_claim_takes_coolest (luaRun_runScripts [Script.claim 0 "a" 10, .init 0 1])
    20 5 "b"
  refine ⟨hone, ?_⟩
  rcases law.1 with ⟨hnone, -⟩ | ⟨slot, hreply, htakes⟩
  · cases hone.symm.trans hnone
  · cases hone.symm.trans hreply
    exact htakes

end Claim

end Aerosuite.Pool
