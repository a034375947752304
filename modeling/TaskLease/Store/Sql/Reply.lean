import TaskLease.Store.Sql.Statement
import TaskLease.Table

/-!
# Replies of a database

What a database answers to a statement, and what the answer means for the operation behind it. Only a
count of changed rows above zero means that a write was applied. An error means that nothing is known,
with one exception: an insert that fails because the row is there already was simply refused.
-/

namespace TaskLease

namespace Sql

/-- A value in a row. -/
inductive Cell where
  | null
  /-- A time, in microseconds since the epoch. -/
  | micros (value : Int)
  | text (value : String)
deriving DecidableEq, Repr

/-- The code of a database error: a word of the standard, or a number of the vendor. -/
inductive Code where
  | state (word : String)
  | number (n : Int)
deriving DecidableEq, Repr

/-- The reply to a statement, or the end of the connection. -/
inductive Reply where
  /-- The number of rows changed. -/
  | rows (count : Nat)
  /-- One row, by column. -/
  | row (cells : Table String Cell)
  | error (code : Code) (message : String)
  | closed
deriving DecidableEq, Repr

/-- Whether an error says that a row with the same key is there. -/
def Code.isUniqueViolation : Code → Bool
  | .state word => word = "23505"
  | .number n => [1022, 1062, 1169, 1586, 1859].contains n

/-- The fault behind a reply that is no answer, if the reply is one. -/
def Reply.fault? : Reply → Option StoreFault
  | .error _ message => some (.query s!"error returned from database: {message}")
  | .closed => some (.connection "the connection was lost")
  | .rows _ | .row _ => none

/-- The number of rows that a statement changed. -/
def Reply.changed : Reply → Nat
  | .rows count => count
  | _ => 0

/-- Whether the statement of an operation was applied. -/
def Dialect.applied (dialect : Dialect) (op : Operation) (reply : Reply) :
    Except StoreFault Bool :=
  match reply with
  | .error code message =>
    if dialect = .mysql ∧ op = .insert ∧ code.isUniqueViolation then .ok false
    else .error (.query s!"error returned from database: {message}")
  | .closed => .error (.connection "the connection was lost")
  | .rows _ | .row _ => .ok (0 < reply.changed)

/-- The cell of a column, which has to be there. -/
def cell (cells : Table String Cell) (column : String) : Except StoreFault Cell :=
  match cells.get? column with
  | some c => .ok c
  | none => .error (.query s!"no column found for name: {column}")

/-- The text in a column. -/
def textOf (cells : Table String Cell) (column : String) : Except StoreFault String := do
  match ← cell cells column with
  | .text value => return value
  | _ => throw (.serialization s!"error occurred while decoding column {column}")

/-- The instant in a column. -/
def instantOf (cells : Table String Cell) (column : String) : Except StoreFault Instant := do
  match ← cell cells column with
  | .micros value =>
    match Instant.ofEpochMicros? value with
    | some t => return t
    | none => throw (.serialization s!"error occurred while decoding column {column}")
  | _ => throw (.serialization s!"error occurred while decoding column {column}")

/-- The record in a row. -/
def recordOf (cells : Table String Cell) : Except StoreFault LockRecord := do
  let name ← textOf cells "name"
  let lockUntil ← instantOf cells "lock_until"
  let lockedAt ← instantOf cells "locked_at"
  let lockedBy ← textOf cells "locked_by"
  return { name, lockUntil, lockedAt, lockedBy }

/-- The record in the reply to a request for a row. -/
def Reply.toRecord (reply : Reply) : Except StoreFault (Option LockRecord) :=
  match reply.fault? with
  | some fault => .error fault
  | none =>
    match reply with
    | .row cells => (recordOf cells).map some
    | _ => .ok none

/-- Whether a statement without an answer of its own succeeded. -/
def Reply.toDone (reply : Reply) : Except StoreFault Unit :=
  match reply.fault? with
  | some fault => .error fault
  | none => .ok ()

/-- Whether the database is there. Whatever goes wrong, it is not. -/
def Reply.toHealth (reply : Reply) : Except StoreFault Unit :=
  match reply.toDone with
  | .ok () => .ok ()
  | .error fault => .error (.connection fault.message)

end Sql

end TaskLease
