import Aerosuite.Library.History
import Aerosuite.Pool.Lua

/-! Runs of the Lua scripts.  `SlotStep` says what one script can do to one slot.  A run keeps the
pool consistent, and a slot that is held is held by the instance that claimed it last. -/

namespace Aerosuite.Pool

open History

variable {σ : Type} [Add σ] [LinearOrder σ]

/-- A script that ran, with the database that it found and its reply. -/
structure Entry (σ : Type) [LinearOrder σ] where
  before : Redis σ
  script : Script σ
  reply : ScriptReply

namespace Entry

variable (e : Entry σ) (slot : String)

/-- A claim returned the slot to an instance and wrote an expiry. -/
def ClaimedBy (instance_id : String) (expiry : σ) : Prop :=
  ∃ now ttl_ms, e.script = .claim now instance_id ttl_ms ∧ e.reply = .slot (some slot) ∧
    expiry = now + ttl_ms

/-- An instance renewed the slot and wrote an expiry. -/
def RenewedBy (instance_id : String) (expiry : σ) : Prop :=
  ∃ now ttl_ms, e.script = .renew slot instance_id now ttl_ms ∧ e.reply = .count 1 ∧
    expiry = now + ttl_ms

/-- A claim returned the slot. -/
def Claimed : Prop := ∃ instance_id expiry, e.ClaimedBy slot instance_id expiry

/-- A successful claim or renewal of the slot wrote an expiry. -/
def Wrote (expiry : σ) : Prop :=
  ∃ instance_id, e.ClaimedBy slot instance_id expiry ∨ e.RenewedBy slot instance_id expiry

/-- A successful claim or renewal of the slot. -/
def Writes : Prop := ∃ expiry, e.Wrote slot expiry

/-- A successful release of the slot. -/
def Released : Prop := ∃ instance_id now, e.script = .release slot instance_id now ∧
  e.reply = .count 1

/-- A claim with the timestamp `now`. -/
def ClaimsAt (now : σ) : Prop := ∃ instance_id ttl_ms, e.script = .claim now instance_id ttl_ms

/-- A claim found the lease of the slot among the expired ones. -/
def Swept : Prop := ∃ now, e.ClaimsAt now ∧ slot ∈ (e.before.sets .leases).upTo now

/-- An init covered the slot. -/
def Inits : Prop := ∃ min max, e.script = .init min max ∧ InRange min max slot

end Entry

section History

variable {h : List (Entry σ)} {e : Entry σ} {slot : String}

theorem Entry.Wrote.unique {x y : σ} (hx : e.Wrote slot x) (hy : e.Wrote slot y) : x = y := by
  obtain ⟨_, ⟨_, _, hs, _, rfl⟩ | ⟨_, _, hs, _, rfl⟩⟩ := hx <;>
    obtain ⟨_, ⟨_, _, hs', _, rfl⟩ | ⟨_, _, hs', _, rfl⟩⟩ := hy <;> cases hs.symm.trans hs' <;> rfl

theorem Entry.ClaimedBy.claimed {instance_id : String} {expiry : σ}
    (hc : e.ClaimedBy slot instance_id expiry) : e.Claimed slot := ⟨_, _, hc⟩

theorem Entry.ClaimedBy.wrote {instance_id : String} {expiry : σ}
    (hc : e.ClaimedBy slot instance_id expiry) : e.Wrote slot expiry := ⟨_, .inl hc⟩

theorem Entry.RenewedBy.wrote {instance_id : String} {expiry : σ}
    (hr : e.RenewedBy slot instance_id expiry) : e.Wrote slot expiry := ⟨_, .inr hr⟩

theorem Entry.Claimed.writes (hc : e.Claimed slot) : e.Writes slot := by
  obtain ⟨_, expiry, hc⟩ := hc
  exact ⟨expiry, hc.wrote⟩

theorem Entry.RenewedBy.not_claimed {instance_id : String} {expiry : σ}
    (hr : e.RenewedBy slot instance_id expiry) : ¬ e.Claimed slot := by
  rintro ⟨_, _, _, _, hs', -⟩
  obtain ⟨_, _, hs, -⟩ := hr
  cases hs.symm.trans hs'

theorem Entry.RenewedBy.not_released {instance_id : String} {expiry : σ}
    (hr : e.RenewedBy slot instance_id expiry) : ¬ e.Released slot := by
  rintro ⟨_, _, hs', -⟩
  obtain ⟨_, _, hs, -⟩ := hr
  cases hs.symm.trans hs'

/-- Nothing holds the slot: the latest claim or renewal of it was followed by a release, or by a
claim no earlier than the expiry that it wrote. -/
def Vacated (h : List (Entry σ)) (slot : String) : Prop :=
  ∀ newer e expiry, Latest (fun f => f.Writes slot) newer e h → e.Wrote slot expiry →
    (∃ f ∈ newer, f.Released slot) ∨ ∃ f ∈ newer, ∃ now, f.ClaimsAt now ∧ expiry ≤ now

/-- An instance holds the slot: it made the latest claim of it, and since then the slot has been
neither released nor swept. -/
def Tenant (h : List (Entry σ)) (slot instance_id : String) : Prop :=
  ∃ newer e expiry, Latest (fun f => f.Claimed slot) newer e h ∧
    e.ClaimedBy slot instance_id expiry ∧
    ∀ f ∈ newer, ¬ f.Released slot ∧ ¬ f.Swept slot

/-- The latest claim or renewal of the slot wrote `expiry`. -/
def LastWrote (h : List (Entry σ)) (slot : String) (expiry : σ) : Prop :=
  ∃ newer e, Latest (fun f => f.Writes slot) newer e h ∧ e.Wrote slot expiry

theorem Vacated.cons (hv : Vacated h slot) (hw : ¬ e.Writes slot) : Vacated (e :: h) slot := by
  intro newer w expiry hlast hwrote
  obtain ⟨newer', rfl, hlast'⟩ := hlast.of_cons_of_not hw
  rcases hv newer' w expiry hlast' hwrote with ⟨f, hf, hrel⟩ | ⟨f, hf, hclaim⟩
  · exact .inl ⟨f, by simp [hf], hrel⟩
  · exact .inr ⟨f, by simp [hf], hclaim⟩

theorem Vacated.of_released (hr : e.Released slot) (hw : ¬ e.Writes slot) :
    Vacated (e :: h) slot := by
  intro newer w expiry hlast _
  obtain ⟨newer', rfl, -⟩ := hlast.of_cons_of_not hw
  exact .inl ⟨e, by simp, hr⟩

theorem LastWrote.vacated {expiry now : σ} (hl : LastWrote h slot expiry) (hat : e.ClaimsAt now)
    (hexp : expiry ≤ now) (hw : ¬ e.Writes slot) : Vacated (e :: h) slot := by
  intro newer w expiry' hlast hwrote
  obtain ⟨newer', rfl, hlast'⟩ := hlast.of_cons_of_not hw
  obtain ⟨_, w', hlatest, hwrote'⟩ := hl
  obtain rfl := hlast'.unique hlatest
  obtain rfl := hwrote.unique hwrote'
  exact .inr ⟨e, by simp, now, hat, hexp⟩

theorem LastWrote.cons {expiry : σ} (hl : LastWrote h slot expiry) (hw : ¬ e.Writes slot) :
    LastWrote (e :: h) slot expiry := by
  obtain ⟨newer, w, hlast, hwrote⟩ := hl
  exact ⟨e :: newer, w, hlast.cons hw, hwrote⟩

theorem Tenant.cons {instance_id : String} (ht : Tenant h slot instance_id)
    (hc : ¬ e.Claimed slot) (hr : ¬ e.Released slot) (hs : ¬ e.Swept slot) :
    Tenant (e :: h) slot instance_id := by
  obtain ⟨newer, c, expiry, hlast, hclaim, hsince⟩ := ht
  refine ⟨e :: newer, c, expiry, hlast.cons hc, hclaim, fun f hf => ?_⟩
  rcases List.mem_cons.mp hf with rfl | hf
  · exact ⟨hr, hs⟩
  · exact hsince f hf

end History

variable [Zero σ]

/-- What a script can do to a slot. -/
inductive SlotStep (e : Entry σ) (slot : String) : SlotState σ → SlotState σ → Prop
  | entered (hinit : e.Inits slot) : SlotStep e slot .absent (.free 0)
  | claimed {st : SlotState σ} {instance_id : String} {expiry now since : σ}
      (hclaim : e.ClaimedBy slot instance_id expiry) (hat : e.ClaimsAt now)
      (hfree : st.sweep now = .free since) : SlotStep e slot st (.held instance_id expiry)
  | renewed {instance_id : String} {old expiry : σ} (hrenew : e.RenewedBy slot instance_id expiry)
      (hsweep : ¬ e.Swept slot) :
      SlotStep e slot (.held instance_id old) (.held instance_id expiry)
  | released {instance_id : String} {expiry now : σ} (hrelease : e.Released slot) :
      SlotStep e slot (.held instance_id expiry) (.free now)
  | swept {instance_id : String} {expiry now : σ} (hat : e.ClaimsAt now) (hexp : expiry ≤ now)
      (hwrite : ¬ e.Writes slot) : SlotStep e slot (.held instance_id expiry) (.free now)
  | kept {st : SlotState σ} (hinit : e.Inits slot → st ≠ .absent) (hwrite : ¬ e.Writes slot)
      (hrelease : ¬ e.Released slot) (hsweep : ¬ e.Swept slot) : SlotStep e slot st st

section Step

variable {db : Redis σ} {slots : String → SlotState σ}

theorem run_init (db : Redis σ) (min max : ℕ) :
    (Script.init min max).run db =
      (.count (db.missing (slotRange min max)).length,
        db.offer (db.missing (slotRange min max))) := by
  simp [Script.run, run_luaInit]

theorem run_renew (db : Redis σ) (slot instance_id : String) (now ttl_ms : σ) :
    (Script.renew slot instance_id now ttl_ms).run db =
      if db.owner slot = some instance_id then (.count 1, db.zadd .leases slot (now + ttl_ms))
      else (.count 0, db) := by
  simp only [Script.run, run_luaRenew]
  split <;> rfl

theorem run_release (db : Redis σ) (slot instance_id : String) (now : σ) :
    (Script.release slot instance_id now).run db =
      if db.owner slot = some instance_id then (.count 1, db.vacate slot now)
      else (.count 0, db) := by
  simp only [Script.run, run_luaRelease]
  split <;> rfl

/-- A claim sweeps the pool, and then takes the free slot that Redis offers first. -/
theorem run_claim (db : Redis σ) (now : σ) (instance_id : String) (ttl_ms : σ) :
    (Script.claim now instance_id ttl_ms).run db =
      match ((db.sweep now ((db.sets .leases).upTo now)).sets .available).least with
      | none => (.slot none, db.sweep now ((db.sets .leases).upTo now))
      | some (slot, _) => (.slot (some slot),
          (db.sweep now ((db.sets .leases).upTo now)).take slot instance_id (now + ttl_ms)) := by
  simp only [Script.run, run_luaClaim]
  cases ((db.sweep now ((db.sets .leases).upTo now)).sets .available).least <;> rfl

theorem Script.represents (script : Script σ) (h : Represents db slots) :
    Represents (script.run db).2 fun slot => (slots slot).after slot script (script.run db).1 := by
  cases script with
  | init min max =>
    rw [run_init]
    exact h.offer min max
  | claim now instance_id ttl_ms =>
    rw [run_claim]
    split
    · exact h.sweep now
    · next slot _ _ =>
      convert (h.sweep now).take slot instance_id (now + ttl_ms) using 2 with s
      simp [SlotState.after, Function.update_apply]
  | renew slot instance_id now ttl_ms =>
    rw [run_renew]
    split
    · next howner =>
      obtain ⟨expiry, hheld⟩ := h.owner_eq_some howner
      convert h.extend hheld (now + ttl_ms) using 2 with s
      simp [SlotState.after, Function.update_apply]
    · exact h
  | release slot instance_id now =>
    rw [run_release]
    split
    · convert h.vacate slot now using 2 with s
      simp [SlotState.after, Function.update_apply]
    · exact h

theorem Represents.free_of_claim (h : Represents db slots) {now ttl_ms : σ}
    {instance_id slot : String}
    (hreply : ((Script.claim now instance_id ttl_ms).run db).1 = .slot (some slot)) :
    ∃ since, (slots slot).sweep now = .free since := by
  rw [run_claim] at hreply
  split at hreply
  · cases hreply
  · next s since hleast =>
    cases hreply
    exact ⟨since, ((h.sweep now).least hleast).1⟩

theorem Represents.held_of_renew (h : Represents db slots) {now ttl_ms : σ}
    {instance_id slot : String}
    (hreply : ((Script.renew slot instance_id now ttl_ms).run db).1 = .count 1) :
    ∃ expiry, slots slot = .held instance_id expiry := by
  rw [run_renew] at hreply
  split at hreply
  · next howner => exact h.owner_eq_some howner
  · cases hreply

theorem Represents.held_of_release (h : Represents db slots) {now : σ} {instance_id slot : String}
    (hreply : ((Script.release slot instance_id now).run db).1 = .count 1) :
    ∃ expiry, slots slot = .held instance_id expiry := by
  rw [run_release] at hreply
  split at hreply
  · next howner => exact h.owner_eq_some howner
  · cases hreply

section

attribute [local simp] Entry.Writes Entry.Wrote Entry.ClaimedBy Entry.RenewedBy Entry.Released
  Entry.Swept Entry.ClaimsAt Entry.Inits

/-- What a script did to a slot is one of the ways of `SlotStep`. -/
theorem slotStep (h : Represents db slots) (script : Script σ) (slot : String) :
    SlotStep ⟨db, script, (script.run db).1⟩ slot (slots slot)
      ((slots slot).after slot script (script.run db).1) := by
  generalize hreply : (script.run db).1 = reply
  cases script with
  | init min max =>
    by_cases hin : InRange min max slot
    · cases hst : slots slot with
      | absent =>
        simp only [SlotState.after, if_pos hin]
        exact .entered ⟨min, max, rfl, hin⟩
      | free since =>
        simp only [SlotState.after, ite_self, SlotState.enter]
        exact .kept (by simp) (by simp) (by simp) (by simp)
      | held owner expiry =>
        simp only [SlotState.after, ite_self, SlotState.enter]
        exact .kept (by simp) (by simp) (by simp) (by simp)
    · simp only [SlotState.after, if_neg hin]
      refine .kept ?_ (by simp) (by simp) (by simp)
      rintro ⟨min', max', heq, hin'⟩
      cases heq
      exact absurd hin' hin
  | claim now instance_id ttl_ms =>
    by_cases hs : reply = .slot (some slot)
    · obtain ⟨since, hfree⟩ := h.free_of_claim (hreply.trans hs)
      subst hs
      simp only [SlotState.after, if_true]
      exact .claimed ⟨now, ttl_ms, rfl, rfl, rfl⟩ ⟨instance_id, ttl_ms, rfl⟩ hfree
    · have hafter : (slots slot).after slot (.claim now instance_id ttl_ms) reply =
          (slots slot).sweep now := by
        rcases reply with n | (_ | s)
        · rfl
        · rfl
        · exact if_neg fun heq => hs (by rw [heq])
      rw [hafter]
      have hwrite : ¬ Entry.Writes ⟨db, .claim now instance_id ttl_ms, reply⟩ slot := by
        simp [hs]
      by_cases hx : (slots slot).Expired now
      · rw [SlotState.sweep_of_expired hx]
        cases hst : slots slot with
        | absent => simp [hst, SlotState.Expired] at hx
        | free since => simp [hst, SlotState.Expired] at hx
        | held owner expiry =>
          rw [hst] at hx
          exact .swept ⟨instance_id, ttl_ms, rfl⟩ hx hwrite
      · rw [SlotState.sweep_of_not_expired hx]
        refine .kept (by simp) hwrite (by simp) ?_
        rintro ⟨now', ⟨_, _, heq⟩, hmem⟩
        cases heq
        exact hx ((h.mem_upTo now slot).mp hmem)
  | renew s instance_id now ttl_ms =>
    by_cases hs : reply = .count 1 ∧ slot = s
    · obtain ⟨rfl, rfl⟩ := hs
      obtain ⟨expiry, hheld⟩ := h.held_of_renew hreply
      rw [hheld]
      simp only [SlotState.after, if_true]
      exact .renewed ⟨now, ttl_ms, rfl, rfl, rfl⟩ (by simp)
    · have hafter : (slots slot).after slot (.renew s instance_id now ttl_ms) reply =
          slots slot := by
        unfold SlotState.after
        split <;> simp_all
      rw [hafter]
      refine .kept (by simp) ?_ (by simp) (by simp)
      rintro ⟨_, _, ⟨_, _, heq, -⟩ | ⟨_, _, heq, hone, -⟩⟩
      · cases heq
      · cases heq
        exact hs ⟨hone, rfl⟩
  | release s instance_id now =>
    by_cases hs : reply = .count 1 ∧ slot = s
    · obtain ⟨rfl, rfl⟩ := hs
      obtain ⟨expiry, hheld⟩ := h.held_of_release hreply
      rw [hheld]
      simp only [SlotState.after, if_true]
      exact .released ⟨instance_id, now, rfl, rfl⟩
    · have hafter : (slots slot).after slot (.release s instance_id now) reply = slots slot := by
        unfold SlotState.after
        split <;> simp_all
      rw [hafter]
      refine .kept (by simp) (by simp) ?_ (by simp)
      rintro ⟨_, _, heq, hone⟩
      cases heq
      exact hs ⟨hone, rfl⟩

end

end Step

/-- `LuaRun h db`: from the empty pool, the scripts of `h` ran one after the other and left `db`. -/
inductive LuaRun : List (Entry σ) → Redis σ → Prop
  | start : LuaRun [] .empty
  | step {h : List (Entry σ)} {db : Redis σ} (run : LuaRun h db) (script : Script σ) :
      LuaRun (⟨db, script, (script.run db).1⟩ :: h) (script.run db).2

/-- The history and the database that the scripts of a list, newest first, leave. -/
def runScripts : List (Script σ) → List (Entry σ) × Redis σ
  | [] => ([], .empty)
  | script :: older =>
    let (h, db) := runScripts older
    (⟨db, script, (script.run db).1⟩ :: h, (script.run db).2)

theorem luaRun_runScripts (scripts : List (Script σ)) :
    LuaRun (runScripts scripts).1 (runScripts scripts).2 := by
  induction scripts with
  | nil => exact .start
  | cons script older ih => exact ih.step script

/-- The state of a slot after the scripts of a history. -/
def tenancy : List (Entry σ) → String → SlotState σ
  | [], _ => .absent
  | e :: h, slot => (tenancy h slot).after slot e.script e.reply

/-- The pool stores for every slot the state that the history tells. -/
theorem LuaRun.represents {h : List (Entry σ)} {db : Redis σ} (run : LuaRun h db) :
    Represents db (tenancy h) := by
  induction run with
  | start => exact .empty
  | step _ script ih => exact script.represents ih

section Tenancy

variable {h : List (Entry σ)} {e : Entry σ} {slot : String}

/-- What a history must have been for a slot to be in a state. -/
def Explains (h : List (Entry σ)) (slot : String) : SlotState σ → Prop
  | .held instance_id expiry => Tenant h slot instance_id ∧ LastWrote h slot expiry
  | _ => Vacated h slot

/-- One script keeps every slot explained. -/
theorem SlotStep.explains {st st' : SlotState σ} (hstep : SlotStep e slot st st')
    (hst : Explains h slot st) : Explains (e :: h) slot st' := by
  cases hstep with
  | entered hinit =>
    refine Vacated.cons hst ?_
    rintro ⟨_, _, ⟨_, _, hs, -⟩ | ⟨_, _, hs, -⟩⟩ <;> obtain ⟨_, _, hs', -⟩ := hinit <;>
      cases hs.symm.trans hs'
  | claimed hclaim _ _ =>
    exact ⟨⟨[], e, _, Latest.head (P := fun f => f.Claimed slot) hclaim.claimed h, hclaim, by simp⟩,
      [], e, Latest.head (P := fun f => f.Writes slot) hclaim.claimed.writes h, hclaim.wrote⟩
  | renewed hrenew hsweep =>
    exact ⟨hst.1.cons hrenew.not_claimed hrenew.not_released hsweep, [], e,
      Latest.head (P := fun f => f.Writes slot) ⟨_, hrenew.wrote⟩ h, hrenew.wrote⟩
  | released hrelease =>
    refine Vacated.of_released hrelease ?_
    rintro ⟨_, _, ⟨_, _, hs, -⟩ | ⟨_, _, hs, -⟩⟩ <;> obtain ⟨_, _, hs', -⟩ := hrelease <;>
      cases hs.symm.trans hs'
  | swept hat hexp hwrite => exact hst.2.vacated hat hexp hwrite
  | kept _ hwrite hrelease hsweep =>
    cases st with
    | absent => exact Vacated.cons hst hwrite
    | free since => exact Vacated.cons hst hwrite
    | held id x =>
      exact ⟨hst.1.cons (fun hc => hwrite hc.writes) hrelease hsweep, hst.2.cons hwrite⟩

theorem LuaRun.explains {db : Redis σ} (run : LuaRun h db) (slot : String) :
    Explains h slot (tenancy h slot) := by
  induction run with
  | start =>
    intro newer w _ hlast _
    obtain ⟨-, -, older, heq⟩ := hlast
    simp at heq
  | step run script ih => exact (slotStep run.represents script slot).explains ih

/-- A successful renewal or release is made by the tenant. -/
theorem LuaRun.tenant {db : Redis σ} (run : LuaRun h db) {instance_id : String} {expiry : σ}
    (hheld : tenancy h slot = .held instance_id expiry) : Tenant h slot instance_id := by
  have hx := run.explains slot
  rw [hheld] at hx
  exact hx.1

/-- The tenancy law of the Lua pool. -/
theorem lua_tenancy {db : Redis σ} (run : LuaRun h db) (slot : String) :
    (∀ now instance_id ttl_ms,
      ((Script.claim now instance_id ttl_ms).run db).1 = .slot (some slot) →
      ∀ newer e expiry, Latest (fun f => f.Writes slot) newer e h → e.Wrote slot expiry →
        (∃ f ∈ newer, f.Released slot) ∨
          expiry ≤ now ∨ ∃ f ∈ newer, ∃ t, f.ClaimsAt t ∧ expiry ≤ t) ∧
    (∀ instance_id script,
      ((∃ now ttl_ms, script = Script.renew slot instance_id now ttl_ms) ∨
        ∃ now, script = .release slot instance_id now) →
      (script.run db).1 = .count 1 →
      ∃ newer e expiry, Latest (fun f => f.Claimed slot) newer e h ∧
        e.ClaimedBy slot instance_id expiry ∧ ∀ f ∈ newer, ¬ f.Released slot ∧ ¬ f.Swept slot) := by
  refine ⟨fun now instance_id ttl_ms hreply newer e expiry hlast hwrote => ?_,
    fun instance_id script hscript hreply => ?_⟩
  · have hx := run.explains slot
    obtain ⟨since, hfree⟩ := run.represents.free_of_claim hreply
    cases hst : tenancy h slot with
    | absent => rw [hst] at hx; exact (hx newer e expiry hlast hwrote).imp_right .inr
    | free since => rw [hst] at hx; exact (hx newer e expiry hlast hwrote).imp_right .inr
    | held owner old =>
      rw [hst] at hx hfree
      -- The claim itself swept the slot, so the last expiry had come.
      have hold : old ≤ now := by
        by_contra hlt
        simp [SlotState.sweep, hlt] at hfree
      obtain ⟨_, w, hlast', hwrote'⟩ := hx.2
      obtain rfl := hlast.unique hlast'
      obtain rfl := hwrote.unique hwrote'
      exact .inr (.inl hold)
  · rcases hscript with ⟨now, ttl_ms, rfl⟩ | ⟨now, rfl⟩
    · obtain ⟨expiry, hheld⟩ := run.represents.held_of_renew hreply
      exact run.tenant hheld
    · obtain ⟨expiry, hheld⟩ := run.represents.held_of_release hreply
      exact run.tenant hheld

/-- Instance "a" claims slot 0, and its renewal at 5 and the claim of "b" at 20 obey the law. -/
theorem lua_tenancy_two_claims :
    ((∃ f ∈ ([] : List (Entry ℕ)), f.Released "0") ∨
      10 ≤ 20 ∨ ∃ f ∈ ([] : List (Entry ℕ)), ∃ t, f.ClaimsAt t ∧ 10 ≤ t) ∧
    ∃ newer e expiry,
      Latest (fun f => f.Claimed "0") newer e
        (runScripts [Script.claim 0 "a" 10, .init 0 0]).1 ∧
      e.ClaimedBy "0" "a" expiry ∧ ∀ f ∈ newer, ¬ f.Released "0" ∧ ¬ f.Swept "0" := by
  have law := lua_tenancy (luaRun_runScripts [Script.claim 0 "a" 10, .init 0 0]) "0"
  have hwrote : Entry.Wrote ⟨(runScripts [Script.init 0 0]).2, .claim 0 "a" 10, .slot (some "0")⟩
      "0" 10 := ⟨"a", .inl ⟨0, 10, rfl, rfl, rfl⟩⟩
  exact ⟨law.1 20 "b" 5 (by decide) [] _ 10
      (Latest.head (P := fun f : Entry ℕ => f.Writes "0") ⟨10, hwrote⟩ _) hwrote,
    law.2 "a" (.renew "0" "a" 5 10) (.inl ⟨5, 10, rfl⟩) (by decide)⟩

end Tenancy

section Partition

variable {h : List (Entry σ)} {db : Redis σ}

/-- A slot enters the pool by an init that covers it, and nothing takes it out. -/
theorem SlotStep.pooled {e : Entry σ} {slot : String} {st st' : SlotState σ}
    (hstep : SlotStep e slot st st') :
    st' ≠ .absent ↔ e.Inits slot ∨ st ≠ .absent := by
  cases hstep with
  | entered hinit => simp [hinit]
  | claimed _ _ hfree =>
    have hst : st ≠ .absent := by
      rintro rfl
      cases hfree
    simp [hst]
  | renewed _ _ => simp
  | released _ => simp
  | swept _ _ _ => simp
  | kept hinit _ _ _ => exact ⟨.inr, fun hor => hor.elim hinit id⟩

/-- The pool is what the inits of the run covered. -/
theorem LuaRun.pooled_iff (run : LuaRun h db) (slot : String) :
    db.Pooled slot ↔ ∃ e ∈ h, e.Inits slot := by
  rw [run.represents.pooled]
  induction run with
  | start => simp [tenancy]
  | step run script ih =>
    rw [tenancy, (slotStep run.represents script slot).pooled, ih]
    simp

theorem LuaRun.pooled_run (run : LuaRun h db) {script : Script σ}
    (hscript : ∀ min max, script ≠ .init min max) (slot : String) :
    (script.run db).2.Pooled slot ↔ db.Pooled slot := by
  rw [(run.step script).pooled_iff, run.pooled_iff]
  have hinit : ¬ Entry.Inits ⟨db, script, (script.run db).1⟩ slot := by
    rintro ⟨min, max, heq, -⟩
    exact hscript min max heq
  simp [hinit]

/-- The partition invariant of the Lua pool. -/
theorem lua_partition (run : LuaRun h db) :
    Consistent db ∧
    (∀ slot, db.Pooled slot ↔ ∃ e ∈ h, e.Inits slot) ∧
    (∀ script : Script σ, (∀ min max, script ≠ .init min max) →
      ∀ slot, (script.run db).2.Pooled slot ↔ db.Pooled slot) ∧
    ∀ min max,
      ((Script.init min max).run db).1 =
        .count ((Finset.Icc min max).filter fun n => ¬ db.Pooled (slotStr n)).card ∧
      (∀ slot, ((Script.init min max).run db).2.score .available slot =
        if InRange min max slot ∧ ¬ db.Pooled slot then some 0 else db.score .available slot) ∧
      (∀ slot, ((Script.init min max).run db).2.score .leases slot = db.score .leases slot) ∧
      ((Script.init min max).run db).2.strings = db.strings ∧
      (Script.init min max).run ((Script.init min max).run db).2 =
        (.count 0, ((Script.init min max).run db).2) := by
  refine ⟨run.represents.consistent, run.pooled_iff, fun script hscript => run.pooled_run hscript,
    fun min max => ?_⟩
  simp only [run_init]
  refine ⟨?_, fun slot => ?_, Redis.leases_offer _ _, Redis.strings_offer _ _, ?_⟩
  · rw [Redis.length_missing]
  · rw [Redis.available_offer]
    simp only [Redis.mem_missing]
  · rw [Redis.missing_offer]
    rfl

/-- After an init of 0 to 1 and a claim, a claim of "b" keeps slot 1 in the pool. -/
theorem lua_partition_two_slots :
    Consistent (runScripts [Script.claim 0 "a" 10, .init 0 1]).2 ∧
    (∃ e ∈ (runScripts [Script.claim 0 "a" 10, .init 0 1]).1, e.Inits "1") ∧
    ((Script.claim 20 "b" 5).run
      (runScripts [Script.claim 0 "a" 10, .init 0 1]).2).2.Pooled "1" := by
  have law := lua_partition (luaRun_runScripts [Script.claim 0 "a" 10, .init 0 1])
  exact ⟨law.1, (law.2.1 "1").mp (by decide),
    (law.2.2.1 (.claim 20 "b" 5) (by simp) "1").mpr (by decide)⟩

end Partition

end Aerosuite.Pool
