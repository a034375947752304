/-!
# Tables

A finite map kept as the list of its entries, in the order in which the keys came in. Answers that
list a table's entries show that order; everything else goes through `get?`, and the lemmas here say
what each operation does to it.
-/

namespace TaskLease

/-- A finite map from `κ` to `α`, in the order in which its keys came in. -/
structure Table (κ α : Type) where
  /-- The entries; the first one of a key counts. -/
  entries : List (κ × α)
deriving DecidableEq, Repr

namespace Table

variable {κ α : Type} [DecidableEq κ]

instance : EmptyCollection (Table κ α) := ⟨⟨[]⟩⟩

instance : Inhabited (Table κ α) := ⟨∅⟩

/-- The first value that a list of entries has for a key. -/
def lookup (k : κ) : List (κ × α) → Option α
  | [] => none
  | (k', v) :: rest => if k' = k then some v else lookup k rest

/-- The entries with `k` bound to `v`: in its old place, or at the end. -/
def put (k : κ) (v : α) : List (κ × α) → List (κ × α)
  | [] => [(k, v)]
  | (k', v') :: rest => if k' = k then (k, v) :: rest else (k', v') :: put k v rest

/-- The value of a key. -/
def get? (t : Table κ α) (k : κ) : Option α := lookup k t.entries

/-- Whether a key has a value. -/
def contains (t : Table κ α) (k : κ) : Bool := (t.get? k).isSome

/-- Binds a key to a value. -/
def insert (t : Table κ α) (k : κ) (v : α) : Table κ α := ⟨put k v t.entries⟩

/-- Removes a key. -/
def erase (t : Table κ α) (k : κ) : Table κ α := ⟨t.entries.filter fun e => e.1 ≠ k⟩

/-- The keys, in order. -/
def keys (t : Table κ α) : List κ := t.entries.map (·.1)

/-- The values, in order. -/
def values (t : Table κ α) : List α := t.entries.map (·.2)

/-- Builds a table from entries; a later entry of a key replaces an earlier one. -/
def ofList (entries : List (κ × α)) : Table κ α :=
  entries.foldl (fun t e => t.insert e.1 e.2) ∅

@[simp] theorem get?_empty (k : κ) : (∅ : Table κ α).get? k = none := rfl

theorem lookup_put (k k' : κ) (v : α) (es : List (κ × α)) :
    lookup k' (put k v es) = if k = k' then some v else lookup k' es := by
  induction es with
  | nil => simp [put, lookup]
  | cons e rest ih =>
    obtain ⟨a, b⟩ := e
    by_cases ha : a = k
    · subst ha
      by_cases hk : a = k' <;> simp [put, lookup, hk]
    · by_cases hk : k = k'
      · subst hk
        simp [put, lookup, ha, ih]
      · simp [put, lookup, ha, ih, hk]

theorem get?_insert (t : Table κ α) (k k' : κ) (v : α) :
    (t.insert k v).get? k' = if k = k' then some v else t.get? k' :=
  lookup_put k k' v t.entries

@[simp] theorem get?_insert_self (t : Table κ α) (k : κ) (v : α) :
    (t.insert k v).get? k = some v := by simp [get?_insert]

theorem get?_insert_of_ne (t : Table κ α) {k k' : κ} (v : α) (h : k ≠ k') :
    (t.insert k v).get? k' = t.get? k' := by simp [get?_insert, h]

theorem lookup_filter_ne (k k' : κ) (es : List (κ × α)) :
    lookup k' (es.filter fun e => e.1 ≠ k) = if k = k' then none else lookup k' es := by
  induction es with
  | nil => simp [lookup]
  | cons e rest ih =>
    obtain ⟨a, b⟩ := e
    by_cases ha : a = k
    · subst ha
      by_cases hk : a = k' <;> simp_all [lookup]
    · by_cases hk : k = k'
      · subst hk
        simp_all [lookup]
      · simp_all [lookup]

theorem get?_erase (t : Table κ α) (k k' : κ) :
    (t.erase k).get? k' = if k = k' then none else t.get? k' :=
  lookup_filter_ne k k' t.entries

end Table

end TaskLease
