/-!
# Registries

A store that acquires with an insert and then an update pays for a refused insert on every attempt once
the record exists. A provider therefore remembers the names whose records it knows to exist, and goes
straight to the update for those.
-/

namespace TaskLease

/-- The names of records known to exist, the latest one first, none of them twice. -/
structure Registry where
  names : List String := []
  names_nodup : names.Nodup := by exact List.nodup_nil
deriving DecidableEq, Repr

namespace Registry

/-- No names. -/
def empty : Registry := {}

instance : Inhabited Registry := ⟨empty⟩

/-- Whether the record of a name is known to exist. -/
def contains (r : Registry) (name : String) : Bool := r.names.contains name

/-- Remembers a name. -/
def add (r : Registry) (name : String) : Registry :=
  if h : name ∈ r.names then r else ⟨name :: r.names, List.nodup_cons.mpr ⟨h, r.names_nodup⟩⟩

/-- Forgets a name. -/
def remove (r : Registry) (name : String) : Registry :=
  ⟨r.names.filter (· ≠ name), r.names_nodup.sublist List.filter_sublist⟩

/-- Forgets all names. -/
def clear (_ : Registry) : Registry := empty

/-- The number of names remembered. -/
def size (r : Registry) : Nat := r.names.length

/-- Whether no name is remembered. -/
def isEmpty (r : Registry) : Bool := r.names.isEmpty

@[simp] theorem contains_empty (name : String) : empty.contains name = false := rfl

@[simp] theorem contains_clear (r : Registry) (name : String) : r.clear.contains name = false := rfl

theorem contains_add (r : Registry) (name other : String) :
    (r.add name).contains other = (decide (other = name) || r.contains other) := by
  unfold add
  split
  · rename_i h
    by_cases same : other = name
    · subst same
      simp [contains, h]
    · simp [contains, same]
  · simp [contains, Bool.decide_or]

theorem contains_remove (r : Registry) (name other : String) :
    (r.remove name).contains other = (decide (other ≠ name) && r.contains other) := by
  simp [contains, remove, Bool.and_comm]

end Registry

end TaskLease
