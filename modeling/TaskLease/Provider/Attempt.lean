import TaskLease.Provider.Registry
import TaskLease.Store.Access

/-!
# Attempts

An attempt to acquire a lock goes through a few phases, and only what happens inside one phase is
atomic: the look into the registry, the insert, the note that the record exists, the update, and, when
an update fails after an insert of the same attempt, the withdrawal of that note. Attempts of many
providers interleave phase by phase. `acquire` is the run of one attempt that nothing interrupts.

A strategy whose insert takes over expired records needs the insert alone, and no registry.
-/

namespace TaskLease

/-- The phase that an attempt is in, which is what it does next. -/
inductive Attempt where
  /-- Look whether the record is known to exist. -/
  | looking
  /-- Perform the insert. `remembers` tells whether its answer goes into the registry. -/
  | inserting (remembers : Bool)
  /-- Remember that the record exists: the insert was answered, and `acquired` is its answer. -/
  | remembering (acquired : Bool)
  /-- Perform the update. `inserted` tells whether this attempt has tried the insert before. -/
  | updating (inserted : Bool)
  /-- Forget that the record exists, which the update has put into doubt. -/
  | forgetting (fault : StoreFault)
  /-- Nothing: the attempt is over. -/
  | finished (answer : Except StoreFault Bool)
deriving Repr

namespace Attempt

/-- The first phase of an attempt. -/
def first (strategy : AcquireStrategy) : Attempt :=
  if strategy.insertReclaims then .inserting false else .looking

/-- The phase after the look into the registry. -/
def afterLook (known : Bool) : Attempt := if known then .updating false else .inserting true

/-- The phase after an answer to the insert. -/
def afterInsert (remembers : Bool) : Except StoreFault Bool → Attempt
  | .ok acquired => if remembers then .remembering acquired else .finished (.ok acquired)
  | .error fault => .finished (.error fault)

/-- The phase after the name was remembered. -/
def afterRemember (acquired : Bool) : Attempt :=
  if acquired then .finished (.ok true) else .updating true

/-- The phase after an answer to the update. -/
def afterUpdate (inserted : Bool) : Except StoreFault Bool → Attempt
  | .ok acquired => .finished (.ok acquired)
  | .error fault => if inserted then .forgetting fault else .finished (.error fault)

/-- What the attempt has come to. An attempt that is still under way has acquired nothing. -/
def answer : Attempt → Except StoreFault Bool
  | .finished answer => answer
  | _ => .ok false

/-- One phase of an attempt, on the registry of its provider and the store. -/
def step {σ : Type} (accessor : Accessor σ) (config : LockConfig) :
    Attempt → Registry → σ → Attempt × Registry × σ
  | .looking, registry, s => (afterLook (registry.contains config.name), registry, s)
  | .inserting remembers, registry, s =>
    let reply := accessor.perform .insert config s
    (afterInsert remembers reply.1, registry, reply.2)
  | .remembering acquired, registry, s => (afterRemember acquired, registry.add config.name, s)
  | .updating inserted, registry, s =>
    let reply := accessor.perform .update config s
    (afterUpdate inserted reply.1, registry, reply.2)
  | .forgetting fault, registry, s => (.finished (.error fault), registry.remove config.name, s)
  | .finished answer, registry, s => (.finished answer, registry, s)

/-- A number of phases that nothing interrupts. -/
def steps {σ : Type} (accessor : Accessor σ) (config : LockConfig) :
    Nat → Attempt → Registry → σ → Attempt × Registry × σ
  | 0, attempt, registry, s => (attempt, registry, s)
  | n + 1, attempt, registry, s =>
    let next := attempt.step accessor config registry s
    steps accessor config n next.1 next.2.1 next.2.2

/-- How many phases an attempt has left at most. -/
def rank : Attempt → Nat
  | .looking => 5
  | .inserting _ => 4
  | .remembering _ => 3
  | .updating _ => 2
  | .forgetting _ => 1
  | .finished _ => 0

/-- Every phase leaves fewer phases than it began with. -/
theorem rank_step {σ : Type} (accessor : Accessor σ) (config : LockConfig) (a : Attempt)
    (registry : Registry) (s : σ) :
    (a.step accessor config registry s).1.rank ≤ a.rank - 1 := by
  cases a with
  | looking =>
    simp only [step, afterLook]
    split <;> simp [rank]
  | inserting remembers =>
    simp only [step]
    cases (accessor.perform .insert config s).1 with
    | ok acquired => cases remembers <;> simp [afterInsert, rank]
    | error fault => simp [afterInsert, rank]
  | remembering acquired =>
    cases acquired <;> simp [step, afterRemember, rank]
  | updating inserted =>
    simp only [step]
    cases (accessor.perform .update config s).1 with
    | ok acquired => simp [afterUpdate, rank]
    | error fault => cases inserted <;> simp [afterUpdate, rank]
  | forgetting fault => simp [step, rank]
  | finished answer => simp [step, rank]

/-- A run of as many phases as there can be ends with the attempt over. -/
theorem rank_steps {σ : Type} (accessor : Accessor σ) (config : LockConfig) (n : Nat) (a : Attempt)
    (registry : Registry) (s : σ) :
    (steps accessor config n a registry s).1.rank ≤ a.rank - n := by
  induction n generalizing a registry s with
  | zero => simp [steps]
  | succ n ih =>
    have h := rank_step accessor config a registry s
    have h' := ih (a.step accessor config registry s).1 (a.step accessor config registry s).2.1
      (a.step accessor config registry s).2.2
    simp only [steps]
    omega

end Attempt

/-- Tries to acquire a lock, without interruption: the answer, the registry and the store afterwards. -/
def acquire {σ : Type} (accessor : Accessor σ) (config : LockConfig) (registry : Registry) (s : σ) :
    Except StoreFault Bool × Registry × σ :=
  let last := Attempt.steps accessor config 5 (.first accessor.strategy) registry s
  (last.1.answer, last.2)

end TaskLease
