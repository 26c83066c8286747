import Aerosuite.Pool.Redis

/-! What the pool is for: each slot is unknown, free since some time, or held by an instance until
some time.  `Represents` says that a database stores a map from slots to such states: a free slot
is a member of `slots:available` alone, and a held slot a member of `slots:leases` with an owner. -/

namespace Aerosuite.Pool

variable {σ : Type}

/-- The state of a slot. -/
inductive SlotState (σ : Type) where
  | absent
  | free (since : σ)
  | held (owner : String) (expiry : σ)
  deriving DecidableEq

namespace SlotState

/-- The score of the slot in `slots:available`. -/
def available : SlotState σ → Option σ
  | .free since => some since
  | _ => none

/-- The score of the slot in `slots:leases`. -/
def lease : SlotState σ → Option σ
  | .held _ expiry => some expiry
  | _ => none

/-- The value of the slot's owner key. -/
def owner : SlotState σ → Option String
  | .held owner _ => some owner
  | _ => none

/-- The slot after the pool is told to contain it. -/
def enter [Zero σ] : SlotState σ → SlotState σ
  | .absent => .free 0
  | st => st

/-- The slot after the leases that have expired at `now` are reclaimed. -/
def sweep [LinearOrder σ] (now : σ) : SlotState σ → SlotState σ
  | .held owner expiry => if expiry ≤ now then .free now else .held owner expiry
  | st => st

/-- The slot is held, its lease has expired at `now`, and a claim then reclaims it. -/
def Expired [LinearOrder σ] (now : σ) : SlotState σ → Prop
  | .held _ expiry => expiry ≤ now
  | _ => False

section

variable [LinearOrder σ] {now : σ} {st : SlotState σ}

theorem sweep_of_expired (h : st.Expired now) : st.sweep now = .free now := by
  cases st with
  | absent => exact h.elim
  | free since => exact h.elim
  | held owner expiry => exact if_pos h

theorem sweep_of_not_expired (h : ¬ st.Expired now) : st.sweep now = st := by
  cases st with
  | absent => rfl
  | free since => rfl
  | held owner expiry => exact if_neg h

theorem expired_iff : st.Expired now ↔ ∃ expiry, st.lease = some expiry ∧ expiry ≤ now := by
  cases st <;> simp [Expired, lease]

end

theorem lease_isSome (st : SlotState σ) : st.lease.isSome = st.owner.isSome := by
  cases st <;> rfl

theorem owner_eq_some {st : SlotState σ} {id : String} (h : st.owner = some id) :
    ∃ expiry, st = .held id expiry := by
  cases st with
  | absent => cases h
  | free since => cases h
  | held owner expiry =>
    obtain rfl := Option.some.inj h
    exact ⟨expiry, rfl⟩

theorem available_eq_some {st : SlotState σ} {since : σ} (h : st.available = some since) :
    st = .free since := by
  cases st with
  | absent => cases h
  | free since => exact congrArg free (Option.some.inj h)
  | held owner expiry => cases h

end SlotState

variable [LinearOrder σ]

/-- The database stores the slots in the states that `slots` says. -/
structure Represents (db : Redis σ) (slots : String → SlotState σ) : Prop where
  available : ∀ slot, db.score .available slot = (slots slot).available
  lease : ∀ slot, db.score .leases slot = (slots slot).lease
  owner : ∀ slot, db.owner slot = (slots slot).owner

theorem Represents.empty : Represents (Redis.empty : Redis σ) fun _ => .absent :=
  ⟨fun _ => rfl, fun _ => rfl, fun _ => rfl⟩

/-- A consistent pool: no slot is both free and leased, and exactly the leased slots have an
owner. -/
structure Consistent (db : Redis σ) : Prop where
  disjoint : ∀ slot, db.score .available slot = none ∨ db.score .leases slot = none
  owned : ∀ slot, (db.owner slot).isSome = (db.score .leases slot).isSome

theorem Represents.consistent {db : Redis σ} {slots : String → SlotState σ}
    (h : Represents db slots) : Consistent db where
  disjoint slot := by
    rw [h.available, h.lease]
    cases slots slot <;> simp [SlotState.available, SlotState.lease]
  owned slot := by rw [h.owner, h.lease, SlotState.lease_isSome]

/-- The slot is in the pool, free or leased. -/
def Redis.Pooled (db : Redis σ) (slot : String) : Prop :=
  (db.score .available slot).isSome ∨ (db.score .leases slot).isSome

instance (db : Redis σ) (slot : String) : Decidable (db.Pooled slot) :=
  inferInstanceAs (Decidable (_ ∨ _))

theorem Represents.pooled {db : Redis σ} {slots : String → SlotState σ} (h : Represents db slots)
    (slot : String) : db.Pooled slot ↔ slots slot ≠ .absent := by
  rw [Redis.Pooled, h.available, h.lease]
  cases slots slot <;> simp [SlotState.available, SlotState.lease]

/-- The state of a slot as its scores and its owner key show it. -/
def Redis.slotState (db : Redis σ) (slot : String) : SlotState σ :=
  match db.score .leases slot, db.owner slot, db.score .available slot with
  | some expiry, some owner, _ => .held owner expiry
  | _, _, some since => .free since
  | _, _, none => .absent

theorem Consistent.represents {db : Redis σ} (h : Consistent db) : Represents db db.slotState := by
  have key : ∀ slot, db.score .available slot = (db.slotState slot).available ∧
      db.score .leases slot = (db.slotState slot).lease ∧
      db.owner slot = (db.slotState slot).owner := fun slot => by
    have hdis := h.disjoint slot
    have hown := h.owned slot
    simp only [Redis.slotState]
    cases hl : db.score .leases slot <;> cases ho : db.owner slot <;>
      cases ha : db.score .available slot <;>
      simp_all [SlotState.available, SlotState.lease, SlotState.owner]
  exact ⟨fun slot => (key slot).1, fun slot => (key slot).2.1, fun slot => (key slot).2.2⟩

/-- The database after the slots of a list of expired leases are reclaimed at `now`. -/
def Redis.sweep (db : Redis σ) (now : σ) (expired : List String) : Redis σ :=
  expired.foldl (fun db slot => ((db.zrem .leases slot).zadd .available slot now).del (.owner slot))
    db

namespace Redis

theorem sweep_cons (db : Redis σ) (now : σ) (slot : String) (expired : List String) :
    db.sweep now (slot :: expired) =
      (((db.zrem .leases slot).zadd .available slot now).del (.owner slot)).sweep now expired := rfl

/-- What an observation of one slot is after a sweep, when the sweep of other slots does not change
it. -/
theorem sweep_observed {α : Type} (g : Redis σ → α) {v : α} {now : σ} {slot : String}
    (hself : ∀ db : Redis σ,
      g (((db.zrem .leases slot).zadd .available slot now).del (.owner slot)) = v)
    (hother : ∀ (db : Redis σ) s, slot ≠ s →
      g (((db.zrem .leases s).zadd .available s now).del (.owner s)) = g db)
    (db : Redis σ) (expired : List String) :
    g (db.sweep now expired) = if slot ∈ expired then v else g db := by
  induction expired generalizing db with
  | nil => simp [sweep]
  | cons s expired ih =>
    rw [sweep_cons, ih]
    by_cases hs : slot = s
    · subst hs
      simp [hself]
    · simp [hs, hother db s hs]

theorem available_sweep (db : Redis σ) (now : σ) (expired : List String) (slot : String) :
    (db.sweep now expired).score .available slot =
      if slot ∈ expired then some now else db.score .available slot :=
  sweep_observed (fun db => db.score .available slot) (by simp) (fun db s hs => by simp [hs]) db
    expired

theorem leases_sweep (db : Redis σ) (now : σ) (expired : List String) (slot : String) :
    (db.sweep now expired).score .leases slot =
      if slot ∈ expired then none else db.score .leases slot :=
  sweep_observed (fun db => db.score .leases slot) (by simp) (fun db s hs => by simp [hs]) db
    expired

theorem owner_sweep (db : Redis σ) (now : σ) (expired : List String) (slot : String) :
    (db.sweep now expired).owner slot = if slot ∈ expired then none else db.owner slot :=
  sweep_observed (fun db => db.owner slot) (by simp) (fun db s hs => by simp [hs]) db expired

end Redis

theorem Represents.mem_upTo {db : Redis σ} {slots : String → SlotState σ} (h : Represents db slots)
    (now : σ) (slot : String) : slot ∈ (db.sets .leases).upTo now ↔ (slots slot).Expired now := by
  rw [SortedSet.mem_upTo, SlotState.expired_iff, ← h.lease]
  rfl

theorem Represents.sweep {db : Redis σ} {slots : String → SlotState σ} (h : Represents db slots)
    (now : σ) : Represents (db.sweep now ((db.sets .leases).upTo now))
      fun slot => (slots slot).sweep now := by
  have key : ∀ slot,
      (db.sweep now ((db.sets .leases).upTo now)).score .available slot =
        ((slots slot).sweep now).available ∧
      (db.sweep now ((db.sets .leases).upTo now)).score .leases slot =
        ((slots slot).sweep now).lease ∧
      (db.sweep now ((db.sets .leases).upTo now)).owner slot =
        ((slots slot).sweep now).owner := fun slot => by
    rw [Redis.available_sweep, Redis.leases_sweep, Redis.owner_sweep]
    by_cases hx : (slots slot).Expired now
    · have hmem := (h.mem_upTo now slot).mpr hx
      rw [if_pos hmem, if_pos hmem, if_pos hmem, SlotState.sweep_of_expired hx]
      exact ⟨rfl, rfl, rfl⟩
    · have hmem := mt (h.mem_upTo now slot).mp hx
      rw [if_neg hmem, if_neg hmem, if_neg hmem, SlotState.sweep_of_not_expired hx]
      exact ⟨h.available slot, h.lease slot, h.owner slot⟩
  exact ⟨fun slot => (key slot).1, fun slot => (key slot).2.1, fun slot => (key slot).2.2⟩

/-- The database after an instance takes a free slot. -/
def Redis.take (db : Redis σ) (slot instance_id : String) (expiry : σ) : Redis σ :=
  ((db.zrem .available slot).zadd .leases slot expiry).set (.owner slot) instance_id

/-- The database after a slot is given back at `now`. -/
def Redis.vacate (db : Redis σ) (slot : String) (now : σ) : Redis σ :=
  ((db.del (.owner slot)).zrem .leases slot).zadd .available slot now

namespace Represents

variable {db : Redis σ} {slots : String → SlotState σ}

theorem take (h : Represents db slots) (slot instance_id : String) (expiry : σ) :
    Represents (db.take slot instance_id expiry)
      (Function.update slots slot (.held instance_id expiry)) := by
  constructor <;> intro s <;> by_cases hs : s = slot <;>
    simp [Redis.take, hs, SlotState.available, SlotState.lease, SlotState.owner, h.available,
      h.lease, h.owner]

theorem vacate (h : Represents db slots) (slot : String) (now : σ) :
    Represents (db.vacate slot now) (Function.update slots slot (.free now)) := by
  constructor <;> intro s <;> by_cases hs : s = slot <;>
    simp [Redis.vacate, hs, SlotState.available, SlotState.lease, SlotState.owner, h.available,
      h.lease, h.owner]

theorem extend (h : Represents db slots) {slot instance_id : String} {expiry : σ}
    (hheld : slots slot = .held instance_id expiry) (expiry' : σ) :
    Represents (db.zadd .leases slot expiry')
      (Function.update slots slot (.held instance_id expiry')) := by
  constructor <;> intro s <;> by_cases hs : s = slot <;>
    simp [hs, SlotState.available, SlotState.lease, SlotState.owner, h.available, h.lease, h.owner,
      hheld]

/-- A slot that Redis offers first is free, since no later than any other free slot. -/
theorem least (h : Represents db slots) {slot : String} {since : σ}
    (hleast : (db.sets .available).least = some (slot, since)) :
    slots slot = .free since ∧ ∀ s since', slots s = .free since' → since ≤ since' := by
  refine ⟨SlotState.available_eq_some ?_, fun s since' hs => ?_⟩
  · rw [← h.available]
    exact SortedSet.score_of_least hleast
  · refine SortedSet.least_score_le hleast (n := s) ?_
    exact (h.available s).trans (by rw [hs]; rfl)

theorem owner_eq_some (h : Represents db slots) {slot instance_id : String}
    (howner : db.owner slot = some instance_id) : ∃ expiry, slots slot = .held instance_id expiry :=
  SlotState.owner_eq_some ((h.owner slot).symm.trans howner)

end Represents

end Aerosuite.Pool
