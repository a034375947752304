import TaskLease.Store.Verdict
import TaskLease.Table

/-!
# Records in memory

The plainest store: a table of records by name. Holders that share it, each with any strategy, race
as processes would on a shared store.
-/

namespace TaskLease

/-- Lock records by name. -/
abbrev Records := Table String LockRecord

namespace Records

/-- Performs one operation: reads the record of the name, decides, and writes. -/
def perform (strategy : AcquireStrategy) (op : Operation) (d : Demand) (records : Records) :
    Bool × Records :=
  let verdict := op.verdict strategy.insertReclaims d (records.get? d.config.name)
  match verdict.write with
  | some r => (verdict.answer, records.insert d.config.name r)
  | none => (verdict.answer, records)

/-- The record found under the operation's name afterwards is what the verdict leaves. -/
theorem get?_perform_self (strategy : AcquireStrategy) (op : Operation) (d : Demand)
    (records : Records) :
    (perform strategy op d records).2.get? d.config.name =
      (op.verdict strategy.insertReclaims d (records.get? d.config.name)).after
        (records.get? d.config.name) := by
  unfold perform Verdict.after
  cases h : (op.verdict strategy.insertReclaims d (records.get? d.config.name)).write <;> simp [h]

/-- An operation leaves the records of other names alone. -/
theorem get?_perform_of_ne (strategy : AcquireStrategy) (op : Operation) (d : Demand)
    (records : Records) {name : String} (h : d.config.name ≠ name) :
    (perform strategy op d records).2.get? name = records.get? name := by
  unfold perform
  cases hw : (op.verdict strategy.insertReclaims d (records.get? d.config.name)).write <;>
    simp [hw, Table.get?_insert, h]

end Records

end TaskLease
