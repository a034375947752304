import TaskLease.Lock.Basic
import TaskLease.Lock.Event

/-!
# Tasks under locks

An executor runs a task only while it holds the task's lock. The locks around the running task form a
stack, the innermost one on top; a task that already runs under a lock of the same name runs its inner
task directly. The lock is released when the task is done, and a release that fails is only logged, since
the task's result is final by then.

Providers and handles are named by references into the state that everything acts on, so that what
happens to a lock while its task runs is not lost.
-/

namespace TaskLease

/-- What executors need of the state `σ` they act on: providers, named by `ρ`, and handles, named by
`η`. -/
structure Locking (σ ρ η : Type) where
  tryLock : ρ → LockConfig → StateM σ (Except LockError (Option η))
  unlock : η → StateM σ (Except LockError Unit)
  extend : η → Duration → Duration → StateM σ (Except LockError Bool)
  drop : η → StateM σ Unit
  tell : Event → StateM σ Unit

/-- A lock around the running task. -/
structure ActiveLock (η : Type) where
  name : String
  handle : η
deriving DecidableEq, Repr

/-- What happened to a task. -/
inductive TaskOutcome (α : Type) where
  /-- It ran to its end, with this result. -/
  | executed (result : α)
  /-- It did not run, because somebody else holds the lock. -/
  | skipped
deriving DecidableEq, Repr

/-- The locks around the running task, the innermost one first. -/
abbrev LockStack (η : Type) := List (ActiveLock η)

namespace LockStack

variable {η : Type}

/-- Whether the task runs under the lock of a name. -/
def isLocked (stack : LockStack η) (name : String) : Bool := stack.any (·.name = name)

/-- Fails unless the task runs under some lock. -/
def assertLocked : LockStack η → Except LockError Unit
  | [] => .error .noActiveLock
  | _ :: _ => .ok ()

end LockStack

namespace Locking

variable {σ ρ η α : Type}

/-- Renews the innermost lock around the task. -/
def extendActive (locking : Locking σ ρ η) (stack : LockStack η) (atMost atLeast : Duration) :
    StateM σ (Except LockError Unit) := do
  match stack with
  | [] => return .error .noActiveLock
  | active :: _ =>
    match ← locking.extend active.handle atMost atLeast with
    | .ok true => return .ok ()
    | .ok false => return .error (.cannotExtend active.name)
    | .error e => return .error e

/-- Runs a task under a lock, if the lock can be had. The task is given the locks it runs under. -/
def execute (locking : Locking σ ρ η) (provider : ρ) (config : LockConfig) (stack : LockStack η)
    (task : LockStack η → StateM σ α) : StateM σ (Except LockError (TaskOutcome α)) := do
  if stack.isLocked config.name then
    return .ok (.executed (← task stack))
  else
    match ← locking.tryLock provider config with
    | .error e => return .error e
    | .ok none => return .ok .skipped
    | .ok (some handle) =>
      let result ← task (⟨config.name, handle⟩ :: stack)
      match ← locking.unlock handle with
      | .ok () => locking.drop handle
      | .error _ =>
        locking.tell (.log .releaseAfterTaskFailed config.name)
        locking.drop handle
      return .ok (.executed result)

end Locking

end TaskLease
