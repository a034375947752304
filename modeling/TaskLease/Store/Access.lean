import TaskLease.Lock.Basic

/-!
# Access to a store

The lock protocol needs four conditional writes of a store, each atomic on its own. Whoever implements
them is an `Accessor`: it writes under one holder identity, and tells by its strategy whether an
insert alone settles an acquisition.

An accessor acts on a state of its own type, which is all that the services above know about it.
-/

namespace TaskLease

/-- How a store decides who owns a lock. -/
inductive AcquireStrategy where
  /-- An insert that fails if there is a record, then an update of an expired one. -/
  | insertThenUpdate
  /-- One write that inserts a record or replaces an expired one. -/
  | atomicUpsert
  /-- A read and a write inside one atomic unit. -/
  | atomicProcedure
deriving DecidableEq, Repr

namespace AcquireStrategy

/-- All strategies. -/
def all : List AcquireStrategy := [.insertThenUpdate, .atomicUpsert, .atomicProcedure]

/-- Whether an insert takes over an expired record, and so settles an acquisition alone. -/
def insertReclaims : AcquireStrategy → Bool
  | .insertThenUpdate => false
  | .atomicUpsert | .atomicProcedure => true

/-- The word for a strategy. -/
def word : AcquireStrategy → String
  | .insertThenUpdate => "insert-then-update"
  | .atomicUpsert => "atomic-upsert"
  | .atomicProcedure => "atomic-procedure"

end AcquireStrategy

/-- The conditional writes of a record. -/
inductive Operation where
  /-- Create the record, or take over an expired one if the strategy says so. -/
  | insert
  /-- Take over an expired record. -/
  | update
  /-- Shorten the lease to the end of its minimum time, if the holder owns it. -/
  | unlock
  /-- Renew a live lease, if the holder owns it. -/
  | extend
deriving DecidableEq, Repr

namespace Operation

/-- The word for an operation. -/
def word : Operation → String
  | .insert => "insert_record"
  | .update => "update_record"
  | .unlock => "unlock"
  | .extend => "extend"

/-- The duration of a configuration that an operation uses. -/
def duration (op : Operation) (config : LockConfig) : Duration :=
  match op with
  | .unlock => config.atLeast
  | .insert | .update | .extend => config.atMost

end Operation

/-- Performs the writes of one holder on a store whose state is a `σ`. The answer tells whether the
write was applied; an unlock is expected to be ignored now and then, so nobody reads its answer. -/
structure Accessor (σ : Type) where
  strategy : AcquireStrategy
  perform : Operation → LockConfig → StateM σ (Except StoreFault Bool)

end TaskLease
