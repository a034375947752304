import TaskLease.Lock.Fault
import TaskLease.Text.Blank
import TaskLease.Time.Instant

/-!
# Locks

A lock is a lease on a name: `LockConfig` says how long it may be held without renewal and how long it
stays held even if its holder is done sooner, `Holder` who holds it, and `LockRecord` is what a store
keeps of it. The lease is live as long as `lockUntil` lies in the future.
-/

namespace TaskLease

/-- What a holder asks for when it asks for a lock. -/
structure LockConfig where
  /-- The name that the competing tasks share. -/
  name : String
  /-- How long the lock is held without renewal, even if its holder is gone. -/
  atMost : Duration
  /-- How long the lock stays held after it was acquired, even if its holder is done. -/
  atLeast : Duration
  name_ne_empty : name ≠ ""
  name_length_le : name.length ≤ Refusal.maxNameLength
  atLeast_le_atMost : atLeast ≤ atMost
deriving DecidableEq, Repr

namespace LockConfig

/-- Checks a request: the name first, then the durations. -/
def make (name : String) (atMost atLeast : Duration) : Except LockError LockConfig :=
  if hn : name = "" then .error (.invalidConfiguration .nameEmpty)
  else if hl : name.length ≤ Refusal.maxNameLength then
    if hd : atLeast ≤ atMost then .ok ⟨name, atMost, atLeast, hn, hl, hd⟩
    else .error (.invalidConfiguration (.leastAboveMost name))
  else .error (.invalidConfiguration (.nameTooLong name))

/-- The same lock with other durations. -/
def withDurations (c : LockConfig) (atMost atLeast : Duration) : Except LockError LockConfig :=
  make c.name atMost atLeast

/-- The text of a configuration. -/
def describe (c : LockConfig) : String :=
  s!"{c.name} (at most {c.atMost.describe}, at least {c.atLeast.describe})"

/-- A configuration passes the check that made it. -/
theorem make_self (c : LockConfig) : make c.name c.atMost c.atLeast = .ok c := by
  simp [make, c.name_ne_empty, c.name_length_le, c.atLeast_le_atMost]

/-- Other durations suit a lock exactly if the shorter one comes second. -/
theorem withDurations_eq_ok_iff {c d : LockConfig} {atMost atLeast : Duration} :
    c.withDurations atMost atLeast = .ok d ↔
      d.name = c.name ∧ d.atMost = atMost ∧ d.atLeast = atLeast := by
  simp only [withDurations, make, c.name_ne_empty, c.name_length_le, dite_true, dite_false]
  by_cases h : atLeast ≤ atMost
  · simp only [h, dite_true, Except.ok.injEq]
    constructor
    · rintro rfl
      exact ⟨rfl, rfl, rfl⟩
    · rintro ⟨h₁, h₂, h₃⟩
      cases d
      simp_all
  · simp only [h, dite_false, reduceCtorEq, false_iff]
    rintro ⟨-, rfl, rfl⟩
    exact h d.atLeast_le_atMost

end LockConfig

/-- Who holds a lock, as written into its record. Two processes must not share an identity, or one
could extend and release the other's leases. -/
structure Holder where
  identity : String
  identity_ne_empty : identity ≠ ""
deriving DecidableEq, Repr

namespace Holder

/-- The identity that a text gives, without the blanks around it. -/
def make (text : String) : Except LockError Holder :=
  let identity := String.ofList (Text.trim text.toList)
  if h : identity = "" then .error (.invalidConfiguration .holderEmpty)
  else if identity.length ≤ Refusal.maxHolderLength then .ok ⟨identity, h⟩
  else .error (.invalidConfiguration .holderTooLong)

end Holder

/-- What a store keeps of a lock. Records of expired leases stay, until the next acquisition
overwrites them. -/
structure LockRecord where
  name : String
  /-- The end of the lease. -/
  lockUntil : Instant
  /-- When the lease was acquired or last extended. -/
  lockedAt : Instant
  /-- The identity of its holder. -/
  lockedBy : String
deriving DecidableEq, Repr

namespace LockRecord

/-- Whether the lease is live at an instant. -/
def isHeldAt (r : LockRecord) (now : Instant) : Bool := decide (now < r.lockUntil)

theorem isHeldAt_iff {r : LockRecord} {now : Instant} : r.isHeldAt now = true ↔ now < r.lockUntil :=
  decide_eq_true_iff

end LockRecord

end TaskLease
