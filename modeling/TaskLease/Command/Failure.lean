import TaskLease.Settings.Load

/-!
# Failures of commands

A command fails because a lock could not be had or used, because the settings are no good, or because of
something else. The kind of failure is what the exit status of the process tells.
-/

namespace TaskLease

/-- Why a command failed. -/
inductive Failure where
  | lock (error : LockError)
  | settings (fault : LoadFault)
  | other (reason : String)
deriving DecidableEq, Repr

namespace Failure

/-- The exit status of a process that ends with a failure. -/
def exitStatus : Failure → Nat
  | .lock error => error.exitStatus
  | .settings _ => ErrorCategory.configuration.exitStatus
  | .other _ => ErrorCategory.unknown.exitStatus

/-- The text of a failure. -/
def message : Failure → String
  | .lock error => error.message
  | .settings .unreadable => "the settings can not be read"
  | .settings (.refused fault) => fault.message
  | .other reason => reason

end Failure

/-- The status that a process can end with: what does not fit into eight bits becomes one. -/
def processStatus (status : Nat) : Nat := if status < 256 then status else 1

/-- The exit status of a process whose command ended so. -/
def exitStatus : Except Failure Nat → Nat
  | .ok status => processStatus status
  | .error failure => processStatus failure.exitStatus

end TaskLease
