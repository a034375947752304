import TaskLease.Provider.Layers
import TaskLease.Store.Backend

/-!
# Sites

The store that the holders of a simulation share, with all that a simulation controls about it: its clock,
the failures that are planned for its next calls, and the journal of the calls made. Each holder reaches
the store through an accessor of its own, and a planned failure stands in front of one holder's accessor
only.
-/

namespace TaskLease

namespace Simulation

/-- The kinds of calls that can be made to fail. -/
inductive CallKind where
  | write (op : Operation)
  | find
deriving DecidableEq, Repr

/-- The word for a kind of calls. -/
def CallKind.word : CallKind → String
  | .write op => op.word
  | .find => "find_record"

/-- A call made to the store, with the identity of the holder that made it. -/
inductive Call where
  | write (op : Operation) (holder : String) (config : LockConfig)
  | find (holder : String) (name : String)
deriving DecidableEq, Repr

/-- A failure planned for a call. -/
structure PlannedFault where
  fault : StoreFault
  /-- Whether the operation is performed all the same, and only its answer is lost. -/
  after : Bool
deriving DecidableEq, Repr

/-- A shared store under the control of a simulation. -/
structure Site where
  backend : Backend
  clock : Instant
  /-- The failures planned for the next calls of a holder, by the label of the holder. -/
  faults : Table (String × CallKind) (List PlannedFault) := ∅
  /-- The calls made, the first one first. -/
  calls : List Call := []

namespace Site

/-- Plans failures, behind those that are planned already. -/
def plan (label : String) (kind : CallKind) (times : Nat) (fault : PlannedFault) (s : Site) : Site :=
  let queue := (s.faults.get? (label, kind)).getD []
  { s with faults := s.faults.insert (label, kind) (queue ++ List.replicate times fault) }

/-- Takes the failure that is planned for the next call, if there is one. -/
def takeFault (label : String) (kind : CallKind) (s : Site) : Option PlannedFault × Site :=
  match s.faults.get? (label, kind) with
  | some (fault :: rest) => (some fault, { s with faults := s.faults.insert (label, kind) rest })
  | _ => (none, s)

/-- Does something to the backend. -/
def onBackend {α : Type} (f : Backend → α × Backend) : StateM Site α := fun s =>
  let (answer, backend) := f s.backend
  (answer, { s with backend })

/-- Makes a call, unless a failure is planned for it. A failure that comes after the operation hides its
answer, but not its own failure. -/
def call {α : Type} (label : String) (kind : CallKind) (entry : Call)
    (f : Instant → Backend → Except StoreFault α × Backend) : StateM Site (Except StoreFault α) := do
  modify fun s => { s with calls := s.calls ++ [entry] }
  let planned ← modifyGet (takeFault label kind)
  let now := (← get).clock
  match planned with
  | none => onBackend (f now)
  | some { fault, after := false } => return .error fault
  | some { fault, after := true } =>
    match ← onBackend (f now) with
    | .ok _ => return .error fault
    | .error own => return .error own

/-- Performs one operation of a holder. -/
def perform (label : String) (holder : Holder) (op : Operation) (config : LockConfig) :
    StateM Site (Except StoreFault Bool) :=
  call label (.write op) (.write op holder.identity config) fun now backend =>
    backend.perform holder.identity now op config

/-- Looks a record up. -/
def find (label : String) (holder : Holder) (name : String) :
    StateM Site (Except StoreFault (Option LockRecord)) :=
  call label .find (.find holder.identity name) fun now backend => backend.find now name

/-- The accessor of a holder. -/
def accessor (strategy : AcquireStrategy) (label : String) (holder : Holder) : Accessor Site :=
  ⟨strategy, perform label holder⟩

end Site

end Simulation

end TaskLease
