import TaskLease.Proofs.Lease.HashStore
import TaskLease.Proofs.Lease.RecordStores
import TaskLease.Provider.Attempt

/-!
# Races for a lock

Any number of calls try to acquire locks at one instant, through any providers over one store, and their
attempts interleave phase by phase in any order. Whoever wins a name does so in a single access, an insert
or an update that applies. The state of a race for a name is therefore one of two:

- `Open`: nobody has won yet. The store keeps what it kept at first, and every attempt has a phase ahead
  that could win. A phase that relies on the record being there is reached only if it is: by an insert that
  was refused, or by a registry that knows the name.
- `Closed`: the store keeps a live lease, and all attempts but at most one are losing.

A step of an open race leaves it open or closes it, and a closed race stays closed.
-/

namespace TaskLease

/-- A call that tries to acquire a lock. -/
structure Contender where
  /-- The number of the provider that it goes through. -/
  provider : Nat
  config : LockConfig
deriving DecidableEq, Repr

/-- Calls on one store at one instant. Each provider acts for one holder, with one strategy. -/
structure Race (τ : Type) [LinearOrder τ] (n : Nat) where
  store : LeaseStore τ
  strategy : Nat → AcquireStrategy
  holder : Nat → String
  now : Instant
  call : Fin n → Contender

/-- How far the calls of a race have come. -/
structure RaceState (n : Nat) (σ : Type) where
  attempts : Fin n → Attempt
  /-- The registries of the providers. -/
  registries : Nat → Registry
  store : σ

namespace Race

/-! ## Phases -/

variable {τ : Type}

/-- A phase of an attempt that can still win. -/
def Pending (strategy : AcquireStrategy) (found : Option (StoredLease τ)) : Attempt → Prop
  | .looking => True
  | .inserting remembers => remembers = true ∨ strategy.insertReclaims = true
  | .remembering acquired => acquired = false ∧ found.isSome = true
  | .updating _ => found.isSome = true
  | .forgetting _ | .finished _ => False

/-- A phase of an attempt that has not won. -/
def Losing : Attempt → Prop
  | .looking | .inserting _ | .updating _ => True
  | .remembering acquired => acquired = false
  | .forgetting _ => False
  | .finished answer => answer = .ok false

/-- A phase of an attempt that has won. -/
def Winning (a : Attempt) : Prop := a = .remembering true ∨ a = .finished (.ok true)

theorem losing_of_pending {strategy : AcquireStrategy} {found : Option (StoredLease τ)} {a : Attempt}
    (pending : Pending strategy found a) : Losing a := by
  cases a with
  | looking | inserting _ | updating _ => trivial
  | remembering acquired => exact pending.1
  | forgetting _ | finished _ => cases pending

theorem pending_first (strategy : AcquireStrategy) (found : Option (StoredLease τ)) :
    Pending strategy found (.first strategy) := by
  unfold Attempt.first
  cases reclaims : strategy.insertReclaims with
  | true => exact .inr reclaims
  | false => trivial

/-! ## Races -/

variable [LinearOrder τ] {n : Nat} (r : Race τ n)

/-- The strategy of a call's provider. -/
def strategyOf (i : Fin n) : AcquireStrategy := r.strategy (r.call i).provider

/-- What a call demands of the store. -/
def demand (i : Fin n) : Demand := ⟨r.holder (r.call i).provider, (r.call i).config, r.now⟩

/-- The accessor that a call goes through. -/
def accessor (i : Fin n) : Accessor r.store.State :=
  r.store.accessor (r.strategyOf i) (r.holder (r.call i).provider) r.now

/-- The calls at their beginning. -/
def start (registries : Nat → Registry) (store : r.store.State) : RaceState n r.store.State where
  attempts i := .first (r.strategyOf i)
  registries := registries
  store := store

/-- The next phase of one call. -/
def step (s : RaceState n r.store.State) (i : Fin n) : RaceState n r.store.State :=
  let provider := (r.call i).provider
  let next := (s.attempts i).step (r.accessor i) (r.call i).config (s.registries provider) s.store
  { attempts := Function.update s.attempts i next.1
    registries := Function.update s.registries provider next.2.1
    store := next.2.2 }

/-- The state after some phases, each of the call that the schedule names. -/
def run (schedule : List (Fin n)) (s : RaceState n r.store.State) : RaceState n r.store.State :=
  schedule.foldl r.step s

/-- All calls for a name have come to an answer. -/
def Settled (name : String) (s : RaceState n r.store.State) : Prop :=
  ∀ i, (r.call i).config.name = name → ∃ answer, s.attempts i = .finished answer

/-- Whatever the order of the phases, one call for a name is answered that it acquired the lock, the store
keeps the lease given for that call, and all others are turned away. -/
def HasOneWinner (name : String) (lease : Fin n → StoredLease τ) (s : RaceState n r.store.State) : Prop :=
  ∀ schedule, r.Settled name (r.run schedule s) → ∃ winner, (r.call winner).config.name = name ∧
    (r.run schedule s).attempts winner = .finished (.ok true) ∧
    r.store.lease (r.run schedule s).store name = some (lease winner) ∧
    ∀ i, (r.call i).config.name = name → i ≠ winner → (r.run schedule s).attempts i = .finished (.ok false)

/-- Whatever the order of the phases, all calls for a name are turned away, and the lease of that name stays
as it is. -/
def HasNoWinner (name : String) (s : RaceState n r.store.State) : Prop :=
  ∀ schedule, r.store.lease (r.run schedule s).store name = r.store.lease s.store name ∧
    (r.Settled name (r.run schedule s) →
      ∀ i, (r.call i).config.name = name → (r.run schedule s).attempts i = .finished (.ok false))

/-! ## One phase -/

section

variable {store : LeaseStore τ} {strategy : AcquireStrategy} {holder : String} {now : Instant}
  {faults : Operation → Option StoreFault} {config : LockConfig} {a : Attempt} {registry : Registry}
  {s : store.State} {name : String}

/-- A phase leaves the store alone, or is one operation on it. -/
theorem store_step (accessor : Accessor store.State) (config : LockConfig) (a : Attempt) (registry : Registry)
    (s : store.State) :
    (a.step accessor config registry s).2.2 = s ∨
      ∃ op, (a.step accessor config registry s).2.2 = (accessor.perform op config s).2 := by
  cases a with
  | looking | remembering _ | forgetting _ | finished _ => exact .inl rfl
  | inserting _ => exact .inr ⟨.insert, rfl⟩
  | updating _ => exact .inr ⟨.update, rfl⟩

theorem sound_step (sound : store.Sound s name) (timely : store.Timely now) :
    store.Sound (a.step (store.accessor strategy holder now faults) config registry s).2.2 name := by
  rcases store_step (store.accessor strategy holder now faults) config a registry s with same | ⟨op, performed⟩
  · rwa [same]
  · rw [performed]
    exact LeaseStore.sound_accessor op config sound timely

theorem keeps_step :
    store.Keeps (a.step (store.accessor strategy holder now faults) config registry s).2.2 name ↔
      store.Keeps s name := by
  rcases store_step (store.accessor strategy holder now faults) config a registry s with same | ⟨op, performed⟩
  · rw [same]
  · rw [performed]
    exact LeaseStore.keeps_accessor op config

/-- An attempt for one name leaves the leases of other names alone, and what registries know of them. -/
theorem step_of_ne (strategy : AcquireStrategy) (holder : String) (now : Instant)
    (faults : Operation → Option StoreFault) (a : Attempt) (registry : Registry) (s : store.State)
    (other : config.name ≠ name) :
    store.lease (a.step (store.accessor strategy holder now faults) config registry s).2.2 name =
        store.lease s name ∧
      (a.step (store.accessor strategy holder now faults) config registry s).2.1.contains name =
        registry.contains name := by
  constructor
  · rcases store_step (store.accessor strategy holder now faults) config a registry s with
      same | ⟨op, performed⟩
    · rw [same]
    · rw [performed]
      exact LeaseStore.lease_accessor_of_ne op other
  · cases a with
    | looking | inserting _ | updating _ | finished _ => rfl
    | remembering acquired => simp [Attempt.step, Registry.contains_add, other.symm]
    | forgetting fault => simp [Attempt.step, Registry.contains_remove, other.symm]

/-- An attempt that can still win wins, or leaves all as it was and can win later. -/
theorem pending_step (holder : String) (sound : store.Sound s config.name) (timely : store.Timely now)
    (keeps : store.Keeps s config.name)
    (expired : ∀ l, store.lease s config.name = some l → l.lockUntil ≤ store.clock.reading now)
    (known : registry.contains config.name = true → (store.lease s config.name).isSome = true)
    (pending : Pending strategy (store.lease s config.name) a) :
    let next := a.step (store.accessor strategy holder now) config registry s
    (Pending strategy (store.lease s config.name) next.1 ∧
        (next.2.1.contains config.name = true → (store.lease s config.name).isSome = true) ∧
        store.lease next.2.2 config.name = store.lease s config.name) ∨
      (Winning next.1 ∧
        store.lease next.2.2 config.name = some (Demand.freshLease store.clock ⟨holder, config, now⟩)) := by
  cases a with
  | looking =>
    left
    refine ⟨?_, known, rfl⟩
    simp only [Attempt.step, Attempt.afterLook]
    cases knows : registry.contains config.name with
    | true => exact known knows
    | false => exact .inl rfl
  | inserting remembers =>
    rcases LeaseStore.insert_of_expired (a := { holder, config, now, strategy, op := .insert }) rfl sound timely
      keeps expired with ⟨acquired, fresh⟩ | ⟨refused, unchanged, present, lasting⟩
    · right
      refine ⟨?_, fresh⟩
      simp only [Attempt.step, LeaseStore.accessor, acquired]
      cases remembers with
      | true => exact .inl rfl
      | false => exact .inr rfl
    · left
      refine ⟨?_, known, unchanged⟩
      -- The insert did not take the expired lease over, so its strategy goes on to the update.
      have remembered : remembers = true := pending.resolve_right (Bool.eq_false_iff.mp lasting)
      simp only [Attempt.step, LeaseStore.accessor, refused, remembered]
      exact ⟨rfl, present⟩
  | remembering acquired =>
    obtain ⟨rfl, present⟩ := pending
    exact .inl ⟨present, fun _ => present, rfl⟩
  | updating inserted =>
    right
    obtain ⟨l, found⟩ := Option.isSome_iff_exists.mp pending
    obtain ⟨acquired, fresh⟩ := LeaseStore.update_of_expired
      (a := { holder, config, now, strategy, op := .update }) rfl sound timely keeps found (expired l found)
    refine ⟨?_, fresh⟩
    simp only [Attempt.step, LeaseStore.accessor, acquired]
    exact .inr rfl
  | forgetting _ | finished _ => cases pending

/-- Where a live lease is kept, an attempt that has not won does not win, and leaves the lease alone. -/
theorem losing_step {l : StoredLease τ} (strategy : AcquireStrategy) (holder : String) (registry : Registry)
    (sound : store.Sound s config.name) (timely : store.Timely now) (keeps : store.Keeps s config.name)
    (found : store.lease s config.name = some l) (live : store.clock.reading now < l.lockUntil) (losing : Losing a) :
    Losing (a.step (store.accessor strategy holder now) config registry s).1 ∧
      store.lease (a.step (store.accessor strategy holder now) config registry s).2.2 config.name = some l := by
  have refused {op : Operation} (acquisition : op.isAcquisition = true) :
      op.applies store.clock ⟨holder, config, now⟩ (store.reclaims strategy) (some l) = false := by
    rw [Bool.eq_false_iff]
    intro applied
    exact not_lt.mpr (Operation.expired_of_applies acquisition applied) live
  have answer (op : Operation) (acquisition : op.isAcquisition = true) :
      (store.perform { holder, config, now, strategy, op } s).1 = .ok false := by
    rw [store.perform_kept (a := { holder, config, now, strategy, op }) sound timely keeps, found,
      refused acquisition]
  have unchanged {op : Operation} (acquisition : op.isAcquisition = true) :
      store.lease (store.perform { holder, config, now, strategy, op } s).2 config.name = some l := by
    rw [store.lease_perform_kept (a := { holder, config, now, strategy, op }) sound timely keeps, found,
      Operation.after, refused acquisition]
    rfl
  cases a with
  | looking =>
    refine ⟨?_, found⟩
    simp only [Attempt.step, Attempt.afterLook]
    split <;> trivial
  | inserting remembers =>
    refine ⟨?_, unchanged rfl⟩
    simp only [Attempt.step, LeaseStore.accessor, answer .insert rfl]
    cases remembers <;> exact rfl
  | remembering acquired =>
    cases losing
    exact ⟨trivial, found⟩
  | updating inserted =>
    refine ⟨?_, unchanged rfl⟩
    simp only [Attempt.step, LeaseStore.accessor, answer .update rfl]
    exact rfl
  | forgetting fault => cases losing
  | finished answer => exact ⟨losing, found⟩

theorem winning_step (accessor : Accessor store.State) (config : LockConfig) (registry : Registry)
    (s : store.State) (winning : Winning a) :
    Winning (a.step accessor config registry s).1 ∧ (a.step accessor config registry s).2.2 = s := by
  rcases winning with rfl | rfl
  · exact ⟨.inr rfl, rfl⟩
  · exact ⟨.inr rfl, rfl⟩

end

end Race

end TaskLease
