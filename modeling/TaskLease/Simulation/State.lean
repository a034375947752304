import TaskLease.Simulation.Step
import TaskLease.Task.Executor

/-!
# The state of a simulation

Providers and handles live in tables, so that a step can name them and a timer can find the handles whose
locks are to be renewed. Handles are numbered as they come; a label leads to the handle that was last
stored under it.
-/

namespace TaskLease

namespace Simulation

/-- A provider, and the label of the holder whose accessor it uses. -/
structure ProviderEntry where
  holder : String
  provider : Provider

/-- A handle, and the label of the provider that gave it out. -/
structure HandleEntry where
  provider : String
  handle : Handle

/-- All that a simulation keeps from step to step. -/
structure State where
  site : Site
  /-- The events told since the last observation. -/
  events : List Event := []
  /-- The reading of the timer that renewals go by. -/
  timer : Duration := .zero
  holders : Table String Holder
  providers : Table String ProviderEntry
  handles : Table Nat HandleEntry := ∅
  /-- The number of the next handle. -/
  nextHandle : Nat := 0
  /-- The handles by their labels. -/
  labels : Table String Nat := ∅
  /-- The lock names mentioned so far. -/
  mentioned : List String := []

/-- Something that a step does. -/
abbrev Running := StateM State

namespace State

/-- The accessor of a holder. -/
def accessor (s : State) (label : String) (holder : Holder) : Accessor Site :=
  Site.accessor s.site.backend.strategy label holder

/-- Does something on the stage that the site and the events make. -/
def onStage {α : Type} (f : Acting Site α) : Running α := fun s =>
  let (answer, stage) := f { store := s.site, events := s.events }
  (answer, { s with site := stage.store, events := stage.events })

/-- Does something at the site. -/
def onSite {α : Type} (f : StateM Site α) : Running α := fun s =>
  let (answer, site) := f s.site
  (answer, { s with site })

/-- The provider of a label, and its accessor. -/
def provider? (s : State) (label : String) : Option (ProviderEntry × Accessor Site) := do
  let entry ← s.providers.get? label
  let holder ← s.holders.get? entry.holder
  return (entry, s.accessor entry.holder holder)

/-- Does something with a provider, if there is one of the label. -/
def onProvider {α : Type} (label : String)
    (f : Accessor Site → Provider → Acting Site (α × Provider)) : Running (Option α) := do
  match (← get).provider? label with
  | none => return none
  | some (entry, accessor) =>
    let (answer, provider) ← onStage (f accessor entry.provider)
    modify fun s => { s with providers := s.providers.insert label { entry with provider } }
    return some answer

/-- Does something with a handle and its provider, if there is a handle of the number. -/
def onHandle {α : Type} (number : Nat)
    (f : Accessor Site → Handle → Provider → Acting Site (α × Handle × Provider)) :
    Running (Option α) := do
  match (← get).handles.get? number with
  | none => return none
  | some entry =>
    let answer ← onProvider entry.provider fun accessor provider => do
      let (answer, handle, provider) ← f accessor entry.handle provider
      return ((answer, handle), provider)
    match answer with
    | none => return none
    | some (answer, handle) =>
      modify fun s => { s with handles := s.handles.insert number { entry with handle } }
      return some answer

/-- Tries to acquire a lock, and keeps the handle. -/
def tryLock (label : String) (config : LockConfig) : Running (Option (Except LockError (Option Nat))) := do
  let now := (← get).timer
  match ← onProvider label fun accessor provider => provider.tryLock accessor now config with
  | none => return none
  | some (.error e) => return some (.error e)
  | some (.ok none) => return some (.ok none)
  | some (.ok (some handle)) =>
    let number := (← get).nextHandle
    modify fun s =>
      { s with
        handles := s.handles.insert number { provider := label, handle }
        nextHandle := number + 1 }
    return some (.ok (some number))

/-- Releases the lock of a handle. -/
def unlock (number : Nat) : Running (Option (Except LockError Unit)) :=
  onHandle number fun accessor handle provider => handle.unlock accessor provider

/-- Renews the lock of a handle. -/
def extend (number : Nat) (atMost atLeast : Duration) : Running (Option (Except LockError Bool)) :=
  onHandle number fun accessor handle provider => handle.extend accessor atMost atLeast provider

/-- Gives a handle up. -/
def drop (number : Nat) : Running Unit := do
  let _ ← onHandle number fun accessor handle provider => do
    let provider ← handle.drop accessor provider
    return ((), handle, provider)
  modify fun s =>
    { s with
      handles := s.handles.erase number
      labels := ⟨s.labels.entries.filter fun e => e.2 ≠ number⟩ }

/-- Tells an event. -/
def tell (event : Event) : Running Unit := onStage (TaskLease.tell event)

/-- What executors need. -/
def locking : Locking State String Nat where
  tryLock label config := return (← State.tryLock label config).getD (.ok none)
  unlock number := return (← State.unlock number).getD (.ok ())
  extend number atMost atLeast := return (← State.extend number atMost atLeast).getD (.ok false)
  drop := State.drop
  tell := State.tell

end State

end Simulation

end TaskLease
