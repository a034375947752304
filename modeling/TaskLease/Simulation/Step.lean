import TaskLease.Simulation.Site

/-!
# Steps and observations

A simulation is a list of steps, each of which does one thing: to a lock through its provider or handle,
to the store through a holder's accessor, to the clocks, or to the store from outside. A step that runs a
task has the steps of the task inside it. Every step leads to an observation: its answer, what has been
called and told since the last observation, and what the store shows.
-/

namespace TaskLease

namespace Simulation

/-- A configuration that is asked for, not yet checked. -/
structure Request where
  name : String
  atMost : Duration
  atLeast : Duration
deriving DecidableEq, Repr

/-- The configuration that a request asks for. -/
def Request.check (r : Request) : Except LockError LockConfig :=
  LockConfig.make r.name r.atMost r.atLeast

/-- A directory of a file store. -/
inductive Place where
  | base
  | locks
deriving DecidableEq, Repr

/-- What is put into a store from outside. -/
inductive Intrusion where
  /-- The content of a lock's record file. -/
  | content (name : String) (text : String)
  /-- The fields of a hash, in place of those that it has. -/
  | hash (key : String) (fields : Redis.Fields)
deriving DecidableEq, Repr

/-- What a step does, if it runs no task. Providers, handles and holders go by their labels. -/
inductive Action where
  | tryLock (provider handle : String) (request : Request)
  | unlock (handle : String)
  | extend (handle : String) (atMost atLeast : Duration)
  | inspect (handle : String)
  | drop (handle : String)
  | clearCache (provider : String)
  | activeLocks (provider : String)
  | activeLock (provider name : String)
  | assertLocked
  | isLocked (name : String)
  | extendActive (atMost atLeast : Duration)
  | perform (op : Operation) (holder : String) (request : Request)
  | find (holder name : String)
  | checkHealth (holder : String)
  | prepare (holder : String)
  | describe (holder : String)
  /-- Moves the clock of the store, then the timer, or only one of them. -/
  | advance (store timer : Bool) (length : Duration)
  | setClock (moment : Instant)
  | planFault (holder : String) (kind : CallKind) (times : Nat) (fault : PlannedFault)
  /-- Removes a record, given by its lock, or a hash, given by its key. -/
  | remove (name : String)
  | intrude (what : Intrusion)
  | removeDirectory (which : Place)
  | listFiles

/-- Replies that are queued for the commands of a step. -/
inductive Replies where
  | none
  | redis (queue : List Redis.Reply)
  | sql (queue : List Sql.Reply)

/-- What every step begins with: the lock name that it mentions, and the replies it queues. -/
structure Opening where
  mentions : Option String := Option.none
  replies : Replies := .none

/-- One step. -/
inductive Step where
  | act (opening : Opening) (action : Action)
  /-- Runs a task of some steps under a lock. -/
  | execute (opening : Opening) (provider : String) (request : Request) (task : List Step)

instance : Inhabited Step := ⟨.act {} .assertLocked⟩

/-- What a store shows of itself. -/
inductive View where
  /-- The records of the names mentioned so far. -/
  | records (found : List (String × Except StoreFault (Option LockRecord)))
  /-- All hashes, and the commands sent. -/
  | hashes (all : List (String × Redis.Fields)) (sent : List Redis.Command)
  /-- The statements sent. -/
  | statements (sent : List Sql.Statement)

/-- What has happened since the last observation. -/
structure Journal where
  calls : List Call
  events : List Event
  view : View

mutual

/-- The answer of a step. -/
inductive Answer where
  /-- There is nothing to answer. -/
  | nothing
  | done
  | truth (value : Bool)
  | lockError (error : LockError)
  | storeFault (fault : StoreFault)
  /-- The step speaks of something that does not exist. -/
  | unknownTarget
  /-- An attempt to acquire a lock: the configuration of the handle, if there is one. -/
  | attempted (config : Option LockConfig)
  /-- What a handle answered, and its configuration afterwards. -/
  | handle (answer : Answer) (config : LockConfig)
  | holder (identity : String)
  | configs (all : List LockConfig)
  | config (found : Option LockConfig)
  /-- What happened to a task: what was seen on entry and after each of its steps, if it ran. -/
  | task (observed : Option (Observation × List Observation))
  /-- A record, and whether it is held now. -/
  | record (found : Option (Bool × LockRecord))
  | store (word : String) (strategy : AcquireStrategy) (identity : String)
  | time (now : Instant)
  | files (all : List (String × ByteArray))

/-- What is seen after a step. -/
inductive Observation where
  | seen (answer : Answer) (journal : Journal)

end

end Simulation

end TaskLease
