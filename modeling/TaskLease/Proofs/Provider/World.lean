import TaskLease.Proofs.Lease.RecordStores
import TaskLease.Proofs.Provider.Acquisition
import TaskLease.Proofs.Provider.LeaseSteps

/-!
# Providers and their handles

Any number of providers on one store of records, with the handles that they have given out. A world goes
from step to step: an attempt to acquire a lock, a release or an extension through a handle, a look at a
record, a provider's cache cleared, the clock set. Each step runs to its end before the next one begins.

A handle that is dropped is released in the background, which is a step of its own: after `drop` nobody can
use the handle any more, and `settle` is its background release.
-/

namespace TaskLease

/-- What has become of a handle. -/
inductive Standing where
  | kept
  /-- Its background release is still to come. -/
  | dropped
  | gone
deriving DecidableEq, Repr

/-- A handle that was given out, and the number of the provider that it came from. -/
structure Issued where
  provider : Nat
  lease : Lease
  standing : Standing := .kept
deriving DecidableEq, Repr

namespace Issued

/-- The name of the handle's lock. -/
def name (x : Issued) : String := x.lease.config.name

/-- Whether the handle counts as held. One that was dropped does until its background release. -/
def Active (x : Issued) : Prop := x.lease.state = .held ∧ x.standing ≠ .gone

/-- The handle of a number, if it is there and of the given standing. -/
def at? (handles : List Issued) (i : Nat) (standing : Standing) : Option Issued :=
  handles[i]?.filter fun x => x.standing = standing

/-- The handle that an attempt gives out, if it does. -/
def ofAnswer (provider : Nat) : Except LockError (Option Handle) → List Issued
  | .ok (some (.lease lease)) => [{ provider, lease }]
  | _ => []

variable {handles : List Issued} {i : Nat} {standing : Standing} {x : Issued}

theorem at?_eq_some : at? handles i standing = some x ↔ handles[i]? = some x ∧ x.standing = standing := by
  simp [at?, Option.filter_eq_some_iff]

/-- The handle that an attempt gives out bears the name that was asked for. -/
theorem name_ofAnswer {provider : Nat} {config : LockConfig} {answer : Except StoreFault Bool}
    (given : x ∈ ofAnswer provider (Provider.answerOf config answer)) : x.name = config.name := by
  rcases answer with fault | _ | _
  · cases given
  · cases given
  · obtain rfl := List.mem_singleton.mp given
    rfl

theorem set_self (found : handles[i]? = some x) : handles.set i x = handles := by
  obtain ⟨bound, same⟩ := List.getElem?_eq_some_iff.mp found
  rw [← same, List.set_getElem_self]

end Issued

/-- A store, and who the providers on it act for, by their numbers. -/
structure Setting where
  store : RecordStore
  strategy : Nat → AcquireStrategy
  holder : Nat → String

/-- A store with providers and handles. -/
structure World (σ : Type) where
  stage : Stage σ
  clock : Instant
  registries : Nat → Registry := fun _ => .empty
  /-- The handles given out, the first one first. -/
  handles : List Issued := []

namespace World

/-- What happens in one step. -/
inductive Act where
  | tryLock (provider : Nat) (config : LockConfig)
  | unlock (handle : Nat)
  | extend (handle : Nat) (atMost atLeast : Duration)
  | drop (handle : Nat)
  /-- The background release of a dropped handle. -/
  | settle (handle : Nat)
  | find (name : String)
  | clearCache (provider : Nat)
  | setClock (now : Instant)
deriving DecidableEq, Repr

/-- A step is an attempt or it is none. -/
theorem Act.attempt_or (act : Act) :
    (∃ provider config, act = .tryLock provider config) ∨ ∀ provider config, act ≠ .tryLock provider config := by
  by_cases attempt : ∃ provider config, act = .tryLock provider config
  · exact .inl attempt
  · exact .inr fun provider config same => attempt ⟨provider, config, same⟩

/-- What is seen of a step. -/
inductive Answer where
  | nothing
  | attempted (answer : Except LockError (Option Handle))
  | released (answer : Except LockError Unit)
  | extended (answer : Except LockError Bool)
  /-- What a background release told. -/
  | settled (told : List Event)
  | found (answer : Except StoreFault (Option LockRecord))

/-- A step, and the faults that the operations of its accessor meet. -/
structure Move where
  act : Act
  faults : Operation → Option StoreFault := fun _ => none

end World

namespace Setting

open World

variable (e : Setting) (faults : Operation → Option StoreFault)

/-- The accessor of a provider at an instant. Operations for which there is a fault fail with it. -/
def accessor (provider : Nat) (now : Instant) : Accessor e.store.State :=
  e.store.accessor (e.strategy provider) (e.holder provider) now faults

/-- An attempt of a provider. -/
def tryLock (w : World e.store.State) (provider : Nat) (config : LockConfig) : Answer × World e.store.State :=
  let reply :=
    Provider.tryPlain (e.accessor faults provider w.clock) config (w.registries provider) w.stage
  (.attempted reply.1.1,
    { w with
      stage := reply.2
      registries := Function.update w.registries provider reply.1.2
      handles := w.handles ++ Issued.ofAnswer provider reply.1.1 })

/-- A release through a handle. -/
def unlock (w : World e.store.State) (i : Nat) (x : Issued) : Answer × World e.store.State :=
  let reply := x.lease.unlock (e.accessor faults x.provider w.clock) w.stage
  (.released reply.1.1, { w with stage := reply.2, handles := w.handles.set i { x with lease := reply.1.2 } })

/-- An extension through a handle. -/
def extend (w : World e.store.State) (i : Nat) (x : Issued) (atMost atLeast : Duration) :
    Answer × World e.store.State :=
  let reply := x.lease.extend (e.accessor faults x.provider w.clock) atMost atLeast w.stage
  (.extended reply.1.1, { w with stage := reply.2, handles := w.handles.set i { x with lease := reply.1.2 } })

/-- The background release of a handle. -/
def settle (w : World e.store.State) (i : Nat) (x : Issued) : Answer × World e.store.State :=
  let stage := (x.lease.drop (e.accessor faults x.provider w.clock) w.stage).2
  (.settled (stage.events.drop w.stage.events.length),
    { w with stage, handles := w.handles.set i { x with standing := .gone } })

/-- One step. A step through a handle that is not there, or that was dropped, does nothing. -/
def step (w : World e.store.State) : Act → Answer × World e.store.State
  | .tryLock provider config => e.tryLock faults w provider config
  | .unlock i =>
    match Issued.at? w.handles i .kept with
    | some x => e.unlock faults w i x
    | none => (.nothing, w)
  | .extend i atMost atLeast =>
    match Issued.at? w.handles i .kept with
    | some x => e.extend faults w i x atMost atLeast
    | none => (.nothing, w)
  | .drop i =>
    match Issued.at? w.handles i .kept with
    | some x => (.nothing, { w with handles := w.handles.set i { x with standing := .dropped } })
    | none => (.nothing, w)
  | .settle i =>
    match Issued.at? w.handles i .dropped with
    | some x => e.settle faults w i x
    | none => (.nothing, w)
  | .find name => (.found (e.store.find w.stage.store name), w)
  | .clearCache provider =>
    (.nothing, { w with registries := Function.update w.registries provider (w.registries provider).clear })
  | .setClock now => (.nothing, { w with clock := now })

/-- The answers of some steps, each with the faults that it meets, and the world after them. -/
def run : List Move → World e.store.State → List Answer × World e.store.State
  | [], w => ([], w)
  | m :: rest, w =>
    let next := e.step m.faults w m.act
    let later := run rest next.2
    (next.1 :: later.1, later.2)

/-- The world at the beginning, when no provider has done anything yet. -/
def start (s : e.store.State) (now : Instant) : World e.store.State where
  stage := { store := s }
  clock := now

/-- What an attempt does, in terms of what it comes to on the store. -/
theorem tryLock_spec (w : World e.store.State) (provider : Nat) (config : LockConfig) :
    let last := acquire (e.accessor faults provider w.clock) config (w.registries provider) w.stage.store
    let next := e.tryLock faults w provider config
    next.1 = .attempted (Provider.answerOf config last.1) ∧ next.2.clock = w.clock ∧
      next.2.stage.store = last.2.2 ∧ next.2.registries = Function.update w.registries provider last.2.1 ∧
      next.2.handles = w.handles ++ Issued.ofAnswer provider (Provider.answerOf config last.1) := by
  refine ⟨?_, rfl, Provider.tryPlain_state.2, ?_, ?_⟩
  · exact congrArg Answer.attempted Provider.tryPlain_answer
  · exact congrArg (Function.update w.registries provider) Provider.tryPlain_state.1
  · exact congrArg (w.handles ++ Issued.ofAnswer provider ·) Provider.tryPlain_answer

end Setting

end TaskLease
