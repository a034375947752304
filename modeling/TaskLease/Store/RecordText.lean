import TaskLease.Json.Skip
import TaskLease.Lock.Basic
import TaskLease.Time.Timestamp

/-!
# The text of a record

Records are written as JSON objects with their four fields in a fixed order. They are read from such
objects with the fields in any order and with further ones, which are passed over, or from an array
of the four values. A field given twice makes a record unreadable, and so does one that is missing.
-/

namespace TaskLease

namespace LockRecord

/-- A record as a JSON value. -/
def toJson (r : LockRecord) : Json :=
  .object [
    ("name", .string r.name),
    ("lock_until", .string (Timestamp.write r.lockUntil)),
    ("locked_at", .string (Timestamp.write r.lockedAt)),
    ("locked_by", .string r.lockedBy)]

/-- The text of a record. -/
def write (r : LockRecord) : String := r.toJson.pretty

/-- The value of the one member of a name. -/
def only (name : String) (members : List (String × Json)) : Option Json :=
  match members.filter fun member => member.1 == name with
  | [(_, value)] => some value
  | _ => none

/-- A text given as a JSON value. -/
def textOf : Json → Option String
  | .string text => some text
  | _ => none

/-- An instant given as a JSON value. -/
def instantOf (value : Json) : Option Instant := do
  Timestamp.read (← textOf value)

/-- The record with the given field values. -/
def ofFields (name lockUntil lockedAt lockedBy : Json) : Option LockRecord := do
  return {
    name := ← textOf name
    lockUntil := ← instantOf lockUntil
    lockedAt := ← instantOf lockedAt
    lockedBy := ← textOf lockedBy }

/-- The record that a JSON value describes. -/
def ofJson : Json → Option LockRecord
  | .object members => do
    ofFields (← only "name" members) (← only "lock_until" members) (← only "locked_at" members)
      (← only "locked_by" members)
  | .array [name, lockUntil, lockedAt, lockedBy] => ofFields name lockUntil lockedAt lockedBy
  | _ => none

/-- The names of the fields. -/
def fields : List String := ["name", "lock_until", "locked_at", "locked_by"]

/-- The record that a text describes. -/
def read (text : String) : Option LockRecord := do
  ofJson (← Json.readOnly fields text)

end LockRecord

end TaskLease
