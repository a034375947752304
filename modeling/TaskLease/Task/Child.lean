/-!
# Children

The process that runs a command under a lock starts one child and waits for it. A child ends with a status,
or is killed; it is killed, too, when the waiting process is told to stop. A program that can not be
started is no child at all.
-/

namespace TaskLease

/-- How a child came to its end. -/
inductive ChildEnd where
  /-- It ended by itself. -/
  | exited (status : Nat)
  /-- It was killed by a signal. -/
  | killed
  /-- It was stopped because the process that waited for it was told to stop. -/
  | interrupted
  /-- It was never started. -/
  | notStarted (reason : String)
  /-- There was no program to start. -/
  | noProgram
  /-- It was started, but it could not be waited for or stopped. -/
  | unwatched (reason : String)
deriving DecidableEq, Repr

/-- The status of a process whose child was interrupted. -/
def interruptedStatus : Nat := 130

end TaskLease
