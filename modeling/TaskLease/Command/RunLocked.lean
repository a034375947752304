import TaskLease.Command.Arguments
import TaskLease.Command.Failure
import TaskLease.Provider.Layers
import TaskLease.Task.Child
import TaskLease.Task.Executor

/-!
# Running a program under a lock

The program is started only while the lock is held, and not at all if somebody else holds it or nothing is
known about it. The process ends with the program's status, with zero if the program was not run because
the lock is held elsewhere, and with the failure otherwise. The lock is released whatever became of the
program.

The program is an action on the same session, so it may take its time, be renewed meanwhile, and meet
whatever else happens to the store.
-/

namespace TaskLease

/-- A provider at work for one process, and the handle that it gave out. -/
structure Session (σ : Type) where
  stage : Stage σ
  provider : Provider
  handle : Option Handle := none

namespace Session

variable {σ : Type}

/-- Does something on the stage of a session. -/
def onStage {α : Type} (f : Acting σ α) : StateM (Session σ) α := fun s =>
  let (answer, stage) := f s.stage
  (answer, { s with stage })

/-- Does something with the handle, if there is one. -/
def onHandle {α : Type} (otherwise : α)
    (f : Handle → Provider → Acting σ (α × Handle × Provider)) : StateM (Session σ) α := do
  let s ← get
  match s.handle with
  | none => return otherwise
  | some handle =>
    let (answer, handle, provider) ← onStage (f handle s.provider)
    modify fun s => { s with provider, handle := some handle }
    return answer

/-- Tries to acquire the lock. -/
def tryLock (accessor : Accessor σ) (config : LockConfig) :
    StateM (Session σ) (Except LockError (Option Unit)) := do
  let s ← get
  let (answer, provider) ← onStage (s.provider.tryLock accessor .zero config)
  match answer with
  | .ok handle =>
    modify fun s => { s with provider, handle }
    return .ok (handle.map fun _ => ())
  | .error e =>
    modify fun s => { s with provider }
    return .error e

/-- Releases the lock. -/
def unlock (accessor : Accessor σ) : StateM (Session σ) (Except LockError Unit) :=
  onHandle (.ok ()) fun handle provider => handle.unlock accessor provider

/-- Renews the lock. -/
def extend (accessor : Accessor σ) (atMost atLeast : Duration) :
    StateM (Session σ) (Except LockError Bool) :=
  onHandle (.ok false) fun handle provider => handle.extend accessor atMost atLeast provider

/-- Gives the handle up. -/
def drop (accessor : Accessor σ) : StateM (Session σ) Unit := do
  onHandle () fun handle provider => do
    let provider ← handle.drop accessor provider
    return ((), handle, provider)
  modify fun s => { s with handle := none }

/-- What executors need of a session. -/
def locking (accessor : Accessor σ) : Locking (Session σ) Unit Unit where
  tryLock _ config := Session.tryLock accessor config
  unlock _ := Session.unlock accessor
  extend _ atMost atLeast := Session.extend accessor atMost atLeast
  drop _ := Session.drop accessor
  tell event := onStage (TaskLease.tell event)

end Session

namespace RunArguments

/-- The lock that is wanted: with the durations given, or else with the defaults. -/
def lock (a : RunArguments) (defaults : LockSettings) : Except LockError LockConfig :=
  LockConfig.make a.name (a.atMost.getD defaults.atMost) (a.atLeast.getD defaults.atLeast)

/-- The provider that the lock is acquired through. -/
def provider (a : RunArguments) (defaults : LockSettings) : Provider :=
  if a.keepAlive then .keepingAlive defaults.keepAliveMinimum (.plain .empty) else .plain .empty

end RunArguments

/-- What the end of a child means for the process that waited for it. -/
def ChildEnd.status : ChildEnd → Except Failure Nat
  | .exited n => .ok n
  | .killed => .ok 1
  | .interrupted => .ok interruptedStatus
  | .notStarted reason | .unwatched reason => .error (.other reason)
  | .noProgram => .error (.lock (.internal "no command given"))

/-- Runs a child under its lock, given what executors need. -/
def runUnder {σ : Type} (locking : Locking σ Unit Unit) (defaults : LockSettings) (a : RunArguments)
    (child : List String → StateM σ ChildEnd) : StateM σ (Except Failure Nat) := do
  match a.lock defaults with
  | .error e => return .error (.lock e)
  | .ok config =>
    match ← locking.execute () config [] fun _ => child a.child with
    | .error e => return .error (.lock e)
    | .ok .skipped => return .ok 0
    | .ok (.executed how) => return how.status

variable {σ : Type}

/-- Runs a child under the lock of a session. -/
def runLocked (defaults : LockSettings) (accessor : Accessor σ) (a : RunArguments)
    (child : List String → StateM (Session σ) ChildEnd) : StateM (Session σ) (Except Failure Nat) :=
  runUnder (Session.locking accessor) defaults a child

/-- A session for a command, before anything has happened. -/
def Session.begin (defaults : LockSettings) (a : RunArguments) (store : σ) : Session σ where
  stage := { store }
  provider := a.provider defaults

end TaskLease
