import TaskLease.Lock.Event
import TaskLease.Store.Access

/-!
# Stages

What providers and handles act on: the state of a store, which they reach through an accessor only, and
the events that they have told so far.
-/

namespace TaskLease

/-- The state of a store, and the events told so far, the first one first. -/
structure Stage (σ : Type) where
  store : σ
  events : List Event := []

/-- An action on a stage. -/
abbrev Acting (σ : Type) := StateM (Stage σ)

/-- Performs a write of an accessor. -/
def Accessor.act {σ : Type} (accessor : Accessor σ) (op : Operation) (config : LockConfig) :
    Acting σ (Except StoreFault Bool) := fun stage =>
  let (answer, store) := accessor.perform op config stage.store
  (answer, { stage with store })

/-- Tells an event. -/
def tell {σ : Type} (event : Event) : Acting σ Unit :=
  modify fun stage => { stage with events := stage.events ++ [event] }

end TaskLease
