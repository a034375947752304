import TaskLease.Lock.Basic
import TaskLease.Table

/-!
# Trackers

A tracker knows the locks that were handed out and are still held, each under a number of its own, so
two handles of one name do not get into each other's way.
-/

namespace TaskLease

/-- The locks handed out and not yet given back. -/
structure Tracker where
  /-- The number of the next lock. -/
  nextId : Nat := 0
  active : Table Nat LockConfig := ∅
deriving DecidableEq, Repr

namespace Tracker

instance : Inhabited Tracker := ⟨{}⟩

/-- Enters a lock, and gives it a number. -/
def enter (t : Tracker) (config : LockConfig) : Nat × Tracker :=
  (t.nextId, { nextId := t.nextId + 1, active := t.active.insert t.nextId config })

/-- Sets the configuration that a lock is now held with. -/
def update (t : Tracker) (id : Nat) (config : LockConfig) : Tracker :=
  { t with active := t.active.insert id config }

/-- Takes a lock out. -/
def remove (t : Tracker) (id : Nat) : Tracker := { t with active := t.active.erase id }

/-- The order of listed locks: by name, then by their durations. -/
def precedes (a b : LockConfig) : Bool :=
  if a.name = b.name then
    if a.atMost = b.atMost then a.atLeast ≤ b.atLeast else a.atMost ≤ b.atMost
  else a.name < b.name

/-- The configurations of the locks that are held, in order. -/
def activeLocks (t : Tracker) : List LockConfig := t.active.values.mergeSort precedes

/-- The configuration of a held lock of the name, if there is one. -/
def activeLock? (t : Tracker) (name : String) : Option LockConfig :=
  t.active.values.find? (·.name = name)

end Tracker

end TaskLease
