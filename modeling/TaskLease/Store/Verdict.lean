import TaskLease.Store.Access

/-!
# Verdicts

Every store that can read a record and write it back in one atomic unit decides in the same way. This
module holds that decision: from the record found, the operation, who asks for what, and the time, it
says which record to write, if any, and what to answer.
-/

namespace TaskLease

/-- Who asks for what, and when. -/
structure Demand where
  /-- The identity of the holder that asks. -/
  holder : String
  config : LockConfig
  /-- The time by the clock of the store. -/
  now : Instant
deriving DecidableEq, Repr

namespace Demand

/-- The record of a lease that begins now. -/
def freshRecord (d : Demand) : LockRecord where
  name := d.config.name
  lockUntil := d.now.add d.config.atMost
  lockedAt := d.now
  lockedBy := d.holder

/-- The record of a lease that its holder is done with. It stays held for its minimum time, and no
longer than that, but never ends in the past. -/
def releasedRecord (d : Demand) (r : LockRecord) : LockRecord :=
  { r with lockUntil := d.now.later (r.lockedAt.add d.config.atLeast) }

/-- The record of a lease renewed now. -/
def renewedRecord (d : Demand) (r : LockRecord) : LockRecord :=
  { r with lockUntil := d.now.add d.config.atMost, lockedAt := d.now }

end Demand

/-- What a read of a record leads to: the record to write, if any, and an answer. -/
structure Verdict (α : Type) where
  write : Option LockRecord
  answer : α
deriving DecidableEq, Repr

namespace Verdict

/-- Nothing is written. -/
def refuse : Verdict Bool := ⟨none, false⟩

/-- A record is written. -/
def apply (r : LockRecord) : Verdict Bool := ⟨some r, true⟩

/-- The record after a verdict on a found one. -/
def after {α : Type} (v : Verdict α) (found : Option LockRecord) : Option LockRecord :=
  v.write.or found

end Verdict

/-- The verdict of an operation. An insert takes over an expired record only if it `reclaims`. -/
def Operation.verdict (reclaims : Bool) (op : Operation) (d : Demand) :
    (found : Option LockRecord) → Verdict Bool
  | none =>
    match op with
    | .insert => .apply d.freshRecord
    | .update | .unlock | .extend => .refuse
  | some r =>
    match op with
    | .insert => if reclaims && !r.isHeldAt d.now then .apply d.freshRecord else .refuse
    | .update => if r.isHeldAt d.now then .refuse else .apply d.freshRecord
    | .unlock => if r.lockedBy = d.holder then .apply (d.releasedRecord r) else .refuse
    | .extend =>
      if r.lockedBy = d.holder ∧ r.isHeldAt d.now then .apply (d.renewedRecord r) else .refuse

/-- An operation answers that it was applied exactly if it writes a record. -/
theorem Operation.verdict_answer (reclaims : Bool) (op : Operation) (d : Demand)
    (found : Option LockRecord) :
    (op.verdict reclaims d found).answer = (op.verdict reclaims d found).write.isSome := by
  cases found <;> cases op <;> simp only [verdict] <;> (try split) <;> rfl

end TaskLease
