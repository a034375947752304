import TaskLease.Provider.Stage

/-!
# Leases

The handle that a provider gives out for an acquired lock. It is held until it is released, or until an
extension finds that the lock is owned by somebody else; from then on it never touches the store again.
A release or an extension that fails leaves the handle as it was, so both can be tried again.
-/

namespace TaskLease

/-- What a handle knows about its lock. -/
inductive LeaseState where
  | held
  | released
  | lost
deriving DecidableEq, Repr

/-- The handle of one acquired lock. -/
structure Lease where
  /-- The configuration of the acquisition, or of the last extension that succeeded. -/
  config : LockConfig
  state : LeaseState := .held
deriving DecidableEq, Repr

namespace Lease

variable {σ : Type}

/-- Releases the lock. Done once, it does nothing any more. -/
def unlock (accessor : Accessor σ) (l : Lease) : Acting σ (Except LockError Unit × Lease) := do
  match l.state with
  | .released | .lost => return (.ok (), l)
  | .held =>
    match ← accessor.act .unlock l.config with
    | .ok _ => return (.ok (), { l with state := .released })
    | .error fault => return (.error (.storage fault), l)

/-- Renews the lock with new durations. The answer tells whether the handle still owns it. -/
def extend (accessor : Accessor σ) (atMost atLeast : Duration) (l : Lease) :
    Acting σ (Except LockError Bool × Lease) := do
  match l.state with
  | .released => return (.error (.handleReleased l.config.name), l)
  | .lost => return (.ok false, l)
  | .held =>
    match l.config.withDurations atMost atLeast with
    | .error e => return (.error e, l)
    | .ok extended =>
      match ← accessor.act .extend extended with
      | .ok true =>
        tell (.count .extensions l.config.name .acquired)
        return (.ok true, { l with config := extended })
      | .ok false =>
        tell (.count .extensions l.config.name .rejected)
        tell (.log .ownershipLost l.config.name)
        return (.ok false, { l with state := .lost })
      | .error fault =>
        tell (.count .extensions l.config.name .error)
        return (.error (.storage fault), l)

/-- Gives the handle up. A lock that is still held is released in the background. -/
def drop (accessor : Accessor σ) (l : Lease) : Acting σ Unit := do
  match l.state with
  | .released | .lost => return
  | .held =>
    tell (.log .droppedWhileHeld l.config.name)
    match ← accessor.act .unlock l.config with
    | .ok _ => return
    | .error _ => tell (.log .backgroundReleaseFailed l.config.name)

end Lease

end TaskLease
