import TaskLease.Time.Duration

/-!
# Faults

Two kinds of faults are told apart. A `StoreFault` is a store that failed; a `LockError` is what a
caller of the locks sees, and wraps the former. A lock that somebody else holds, or that was lost, is
neither: it is an answer.

Each error has a code, each code a category, and each category an exit status, so a shell script can
tell a bad configuration from a store that is down.
-/

namespace TaskLease

/-- How a store failed. -/
inductive StoreFault where
  /-- The store could not be reached. -/
  | connection (detail : String)
  /-- The store refused a statement. -/
  | query (detail : String)
  /-- What the store holds is not a lock record. -/
  | serialization (detail : String)
  /-- A record file could not be locked. -/
  | lockFailed (detail : String)
  /-- A file could not be read or written. -/
  | fileIO (detail : String)
  /-- The store is not there at all. -/
  | unavailable
deriving DecidableEq, Repr

namespace StoreFault

/-- The words about a fault that came with it, if it has any. -/
def detail? : StoreFault → Option String
  | .connection detail | .query detail | .serialization detail | .lockFailed detail
  | .fileIO detail => some detail
  | .unavailable => none

/-- The text of a store fault. -/
def message : StoreFault → String
  | .connection detail => s!"Connection failed: {detail}"
  | .query detail => s!"Query failed: {detail}"
  | .serialization detail => s!"Serialization error: {detail}"
  | .lockFailed detail => s!"Failed to lock record file: {detail}"
  | .fileIO detail => s!"File I/O error: {detail}"
  | .unavailable => "Storage backend unavailable"

end StoreFault

/-- Why a configuration is refused. -/
inductive Refusal where
  | nameEmpty
  | nameTooLong (name : String)
  /-- The lock would have to be held longer than it may be. -/
  | leastAboveMost (name : String)
  | holderEmpty
  | holderTooLong
  /-- The lock would expire too soon to be renewed in time. -/
  | belowRenewalMinimum (minimum : Duration) (name : String) (given : Duration)
  /-- Half of the lock's time is no time at all. -/
  | notRenewable (name : String)
  /-- A reason that a caller gives in words of its own. -/
  | stated (reason : String)
deriving DecidableEq, Repr

namespace Refusal

/-- The longest lock name, in characters. -/
def maxNameLength : Nat := 64

/-- The longest holder identity, in characters. -/
def maxHolderLength : Nat := 255

/-- The text of a refusal. -/
def message : Refusal → String
  | .nameEmpty => "lock name can not be empty"
  | .nameTooLong name => s!"lock name '{name}' exceeds {maxNameLength} characters"
  | .leastAboveMost name =>
    s!"lock_at_least_for is longer than lock_at_most_for for lock '{name}'"
  | .holderEmpty => "holder identity can not be empty"
  | .holderTooLong => s!"holder identity exceeds {maxHolderLength} characters"
  | .belowRenewalMinimum minimum name given =>
    s!"keep-alive needs lock_at_most_for of at least {minimum.describe}, '{name}' has {given.describe}"
  | .notRenewable name => s!"lock '{name}' is too short to be kept alive"
  | .stated reason => reason

end Refusal

/-- What the callers of locks see go wrong. -/
inductive LockError where
  | invalidConfiguration (refusal : Refusal)
  /-- A released handle was to be extended. -/
  | handleReleased (name : String)
  | unsupported (operation : String)
  /-- There is no lock around the running task. -/
  | noActiveLock
  /-- The lock around the running task was lost. -/
  | cannotExtend (name : String)
  | storage (fault : StoreFault)
  | internal (detail : String)
deriving DecidableEq, Repr

/-- The category of an error code. -/
inductive ErrorCategory where
  | configuration | usage | storage | unknown
deriving DecidableEq, Repr

namespace ErrorCategory

/-- The categories, in the order of their codes. -/
def all : List ErrorCategory := [.configuration, .usage, .storage, .unknown]

/-- The exit status of a process that fails for a reason of this category. -/
def exitStatus : ErrorCategory → Nat
  | .configuration => 2
  | .usage => 3
  | .storage => 4
  | .unknown => 70

/-- The word for a category. -/
def word : ErrorCategory → String
  | .configuration => "configuration"
  | .usage => "usage"
  | .storage => "storage"
  | .unknown => "unknown"

end ErrorCategory

/-- A number that names a kind of error. -/
structure ErrorCode where
  number : Nat
deriving DecidableEq, Repr

namespace ErrorCode

/-- The category of a code, which its thousands tell. -/
def category (code : ErrorCode) : ErrorCategory :=
  match code.number / 1000 with
  | 1 => .configuration
  | 2 => .usage
  | 5 => .storage
  | _ => .unknown

/-- The codes in use, in increasing order. -/
def all : List ErrorCode := [⟨1001⟩, ⟨2001⟩, ⟨2002⟩, ⟨2003⟩, ⟨2004⟩, ⟨5001⟩, ⟨5002⟩]

end ErrorCode

namespace LockError

/-- The code of an error. -/
def code : LockError → ErrorCode
  | .invalidConfiguration _ => ⟨1001⟩
  | .handleReleased _ => ⟨2001⟩
  | .unsupported _ => ⟨2002⟩
  | .noActiveLock => ⟨2003⟩
  | .cannotExtend _ => ⟨2004⟩
  | .storage _ => ⟨5001⟩
  | .internal _ => ⟨5002⟩

/-- The exit status of a process that ends with an error. -/
def exitStatus (e : LockError) : Nat := e.code.category.exitStatus

/-- The store fault behind an error, if there is one. -/
def source? : LockError → Option StoreFault
  | .storage fault => some fault
  | _ => none

/-- The text of an error. -/
def message : LockError → String
  | .invalidConfiguration refusal => s!"Invalid lock configuration: {refusal.message}"
  | .handleReleased name => s!"Lock '{name}' has already been released"
  | .unsupported operation => s!"Unsupported operation: {operation}"
  | .noActiveLock => "No active lock in the current task"
  | .cannotExtend name => s!"Lock '{name}' can not be extended, most likely it already expired"
  | .storage fault => s!"Storage error: {fault.message}"
  | .internal detail => s!"Internal error: {detail}"

/-- Every code that an error has is in use. -/
theorem code_mem_all (e : LockError) : e.code ∈ ErrorCode.all := by
  cases e <;> simp [code, ErrorCode.all]

end LockError

end TaskLease
