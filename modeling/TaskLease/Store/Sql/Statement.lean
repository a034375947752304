import TaskLease.Number.Binary64
import TaskLease.Store.Access

/-!
# Statements

Locks kept in a table of a database, one row for each. Every operation is one statement, which takes the
time from the database. The two dialects differ in how they acquire: one inserts the row or, in the same
statement, takes over an expired one; the other inserts, and updates an expired row with a statement of
its own. They also differ in the unit of durations and in the order in which values are bound.

Table names are spliced into the statements, so only plain identifiers, perhaps qualified by a schema,
are let through.
-/

namespace TaskLease

namespace Sql

/-- The dialect of a database. -/
inductive Dialect where
  | postgresql
  | mysql
deriving DecidableEq, Repr

/-- A value bound in a statement. -/
inductive Parameter where
  | text (value : String)
  | integer (value : Int)
  | double (value : Binary64)
deriving DecidableEq, Repr

/-- A statement as it is executed. -/
structure Statement where
  sql : String
  parameters : List Parameter
deriving DecidableEq, Repr

/-- A letter of the ASCII alphabet, or an underscore. -/
def isIdentifierStart (c : Char) : Bool := c.isAlpha || c == '_'

/-- A letter or digit of ASCII, or an underscore. -/
def isIdentifierPart (c : Char) : Bool := c.isAlphanum || c == '_'

/-- Whether a text is a plain identifier. -/
def isIdentifier : List Char → Bool
  | [] => false
  | c :: rest => isIdentifierStart c && rest.all isIdentifierPart

/-- The parts of a text between its dots. -/
def dotted : List Char → List (List Char)
  | [] => [[]]
  | c :: rest =>
    if c = '.' then [] :: dotted rest
    else
      match dotted rest with
      | [] => [[c]]
      | part :: parts => (c :: part) :: parts

/-- Lets a table name through if it consists of plain identifiers with dots between them. -/
def checkTable (table : String) : Except StoreFault Unit :=
  if (dotted table.toList).all isIdentifier then .ok ()
  else .error (.query s!"invalid table name '{table}'")

/-- The current time, as a dialect says it. -/
def Dialect.now : Dialect → String
  | .postgresql => "CURRENT_TIMESTAMP"
  | .mysql => "UTC_TIMESTAMP(3)"

/-- The statement text of an operation on a table. -/
def Dialect.operationText (dialect : Dialect) (table : String) (op : Operation) : String :=
  let now := dialect.now
  match dialect with
  | .postgresql =>
    let mostUntil := s!"{now} + make_interval(secs => $2)"
    match op with
    | .insert =>
      s!"INSERT INTO {table} (name, lock_until, locked_at, locked_by) VALUES ($1, {mostUntil}, {now}, $3) ON CONFLICT (name) DO UPDATE SET lock_until = EXCLUDED.lock_until, locked_at = EXCLUDED.locked_at, locked_by = EXCLUDED.locked_by WHERE {table}.lock_until <= {now}"
    | .update =>
      s!"UPDATE {table} SET lock_until = {mostUntil}, locked_at = {now}, locked_by = $3 WHERE name = $1 AND lock_until <= {now}"
    | .unlock =>
      s!"UPDATE {table} SET lock_until = GREATEST({now}, locked_at + make_interval(secs => $2)) WHERE name = $1 AND locked_by = $3"
    | .extend =>
      s!"UPDATE {table} SET lock_until = {mostUntil}, locked_at = {now} WHERE name = $1 AND locked_by = $3 AND lock_until > {now}"
  | .mysql =>
    let mostUntil := s!"TIMESTAMPADD(MICROSECOND, ?, {now})"
    match op with
    | .insert =>
      s!"INSERT INTO {table} (name, lock_until, locked_at, locked_by) VALUES (?, {mostUntil}, {now}, ?)"
    | .update =>
      s!"UPDATE {table} SET lock_until = {mostUntil}, locked_at = {now}, locked_by = ? WHERE name = ? AND lock_until <= {now}"
    | .unlock =>
      s!"UPDATE {table} SET lock_until = GREATEST({now}, TIMESTAMPADD(MICROSECOND, ?, locked_at)) WHERE name = ? AND locked_by = ?"
    | .extend =>
      s!"UPDATE {table} SET lock_until = {mostUntil}, locked_at = {now} WHERE name = ? AND locked_by = ? AND lock_until > {now}"

/-- The statement text that reads one row. -/
def Dialect.findText (dialect : Dialect) (table : String) : String :=
  let mark := match dialect with
    | .postgresql => "$1"
    | .mysql => "?"
  s!"SELECT name, lock_until, locked_at, locked_by FROM {table} WHERE name = {mark}"

/-- The statement text that creates the table where it is missing. -/
def Dialect.createText (dialect : Dialect) (table : String) : String :=
  let time := match dialect with
    | .postgresql => "TIMESTAMPTZ"
    | .mysql => "DATETIME(3)"
  s!"CREATE TABLE IF NOT EXISTS {table} (name VARCHAR(64) NOT NULL PRIMARY KEY, lock_until {time} NOT NULL, locked_at {time} NOT NULL, locked_by VARCHAR(255) NOT NULL)"

/-- The most that an unsigned number of sixty-four bits can be. -/
def maxUnsigned : Nat := 0xFFFFFFFFFFFFFFFF

/-- The most that a signed number of sixty-four bits can be. -/
def maxSigned : Nat := 0x7FFFFFFFFFFFFFFF

/-- A duration in seconds, with its milliseconds behind the point. -/
def seconds (d : Duration) : Binary64 := (Binary64.ofNat (min d.millis maxUnsigned)).divNat 1000

/-- A duration in microseconds, as far as a signed number reaches. -/
def micros (d : Duration) : Int := min d.micros maxSigned

/-- The statement of a holder's operation. -/
def Dialect.operation (dialect : Dialect) (table holder : String) (op : Operation)
    (config : LockConfig) : Statement :=
  let name := Parameter.text config.name
  let owner := Parameter.text holder
  let length := op.duration config
  let parameters := match dialect with
    | .postgresql => [name, .double (seconds length), owner]
    | .mysql =>
      match op with
      | .insert => [name, .integer (micros length), owner]
      | .update => [.integer (micros length), owner, name]
      | .unlock | .extend => [.integer (micros length), name, owner]
  ⟨dialect.operationText table op, parameters⟩

/-- The statement that reads the row of a lock. -/
def Dialect.find (dialect : Dialect) (table name : String) : Statement :=
  ⟨dialect.findText table, [.text name]⟩

/-- The statement that creates the table. -/
def Dialect.create (dialect : Dialect) (table : String) : Statement := ⟨dialect.createText table, []⟩

/-- The statement that shows whether the database is there. -/
def probe : Statement := ⟨"SELECT 1", []⟩

/-- How a dialect acquires. -/
def Dialect.strategy : Dialect → AcquireStrategy
  | .postgresql => .atomicUpsert
  | .mysql => .insertThenUpdate

end Sql

end TaskLease
