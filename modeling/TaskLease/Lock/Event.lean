/-!
# Events

What the library tells the outside beside its answers: counters of attempts and extensions, and log
lines about what an operator should know.
-/

namespace TaskLease

/-- How an attempt to acquire or extend a lock came out. -/
inductive Outcome where
  | acquired
  /-- Somebody else holds the lock. -/
  | rejected
  /-- The store failed, so nothing is known. -/
  | error
deriving DecidableEq, Repr

/-- The word for an outcome. -/
def Outcome.word : Outcome → String
  | .acquired => "acquired"
  | .rejected => "rejected"
  | .error => "error"

/-- A counter, kept for each lock and outcome. -/
inductive Counter where
  | attempts
  | extensions
deriving DecidableEq, Repr

namespace Counter

/-- All counters, in the order in which they are announced. -/
def all : List Counter := [.attempts, .extensions]

/-- The name of a counter. -/
def title : Counter → String
  | .attempts => "shedlock_lock_attempts_total"
  | .extensions => "shedlock_lock_extensions_total"

/-- What a counter counts. -/
def description : Counter → String
  | .attempts => "Total lock acquisition attempts"
  | .extensions => "Total lock extension attempts"

end Counter

/-- What a log line says. -/
inductive Notice where
  | acquisitionFailed
  | ownershipLost
  | droppedWhileHeld
  | backgroundReleaseFailed
  | expiredBeforeRenewal
  | renewalFailed
  | releaseAfterTaskFailed
deriving DecidableEq, Repr

namespace Notice

/-- Whether a notice is about a failure, rather than a warning. -/
def isError : Notice → Bool
  | .acquisitionFailed | .backgroundReleaseFailed | .releaseAfterTaskFailed => true
  | _ => false

/-- The level that a notice is logged at. -/
def level (n : Notice) : String := if n.isError then "ERROR" else "WARN"

/-- The text of a notice. -/
def message : Notice → String
  | .acquisitionFailed => "Lock acquisition failed"
  | .ownershipLost => "Lock can not be extended, ownership lost"
  | .droppedWhileHeld => "Lock dropped without unlock, releasing"
  | .backgroundReleaseFailed => "Background unlock failed"
  | .expiredBeforeRenewal => "Can't extend lock, it has already expired"
  | .renewalFailed => "Can't extend lock"
  | .releaseAfterTaskFailed => "Failed to release lock after task"

end Notice

/-- Something told to the outside about a lock. -/
inductive Event where
  | count (counter : Counter) (lock : String) (outcome : Outcome)
  | log (notice : Notice) (lock : String)
deriving DecidableEq, Repr

end TaskLease
