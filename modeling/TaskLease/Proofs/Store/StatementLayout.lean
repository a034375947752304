import TaskLease.Proofs.Number.Rounding
import TaskLease.Proofs.Store.TableNames

/-!
# What statements say

A statement is sent as a text with marks in it, and the values for the marks beside it. `Statement.filled` puts the
values where a database puts them: one dialect takes them in the order of the marks, the other by the numbers that the
marks bear. `Dialect.layout` is what an operation has to say, with slots for the three values, and `Dialect.Carries`
says what belongs into the slots: the name of the lock, the holder, and a duration in the unit of the dialect.
`says_operation` shows that this is what its statement says, whatever order the values are bound in.
-/

namespace TaskLease

namespace Sql

/-- A character of a statement, or a value in the place of a mark. -/
inductive Symbol where
  | char (c : Char)
  | value (p : Parameter)
deriving DecidableEq, Repr

/-- The values of an operation. -/
inductive Slot where
  | name
  | length
  | holder
deriving DecidableEq, Repr

/-- A part of a statement. -/
inductive Piece where
  | text (t : String)
  | slot (which : Slot)
deriving DecidableEq, Repr

/-- A part of a statement, with the values in place. -/
def Piece.symbols (value : Slot → Parameter) : Piece → List Symbol
  | .text t => t.toList.map .char
  | .slot which => [.value (value which)]

/-- A part whose text is free of a character. -/
def Piece.Plain (c : Char) : Piece → Prop
  | .text t => c ∉ t.toList
  | .slot _ => True

/-! ## Marks -/

/-- What a mark begins with. -/
def Dialect.marker : Dialect → Char
  | .postgresql => '$'
  | .mysql => '?'

/-- Puts values in the place of marks, in their order. There has to be one for each mark. -/
def fillInOrder : List Char → List Parameter → Option (List Symbol)
  | [], [] => some []
  | [], _ :: _ => none
  | c :: rest, values =>
    if c = '?' then
      match values with
      | [] => none
      | p :: values => (fillInOrder rest values).map (.value p :: ·)
    else (fillInOrder rest values).map (.char c :: ·)

/-- The value of a number of one digit, counting from one. -/
def numbered (values : List Parameter) (digit : Char) : Option Parameter :=
  match digit.toNat - '0'.toNat with
  | 0 => none
  | k + 1 => values[k]?

/-- Puts values in the place of marks that bear their numbers. -/
def fillByNumber : List Char → List Parameter → Option (List Symbol)
  | [], _ => some []
  | c :: rest, values =>
    if c = '$' then
      match rest with
      | [] => none
      | digit :: rest => (numbered values digit).bind fun p => (fillByNumber rest values).map (.value p :: ·)
    else (fillByNumber rest values).map (.char c :: ·)

/-- Puts values in the place of marks. -/
def Dialect.fill : Dialect → List Char → List Parameter → Option (List Symbol)
  | .postgresql => fillByNumber
  | .mysql => fillInOrder

/-- A statement with its values in place, if they fit. -/
def Statement.filled (dialect : Dialect) (s : Statement) : Option (List Symbol) :=
  dialect.fill s.sql.toList s.parameters

/-! ## Layouts -/

/-- The time that lies a duration after another. -/
def Dialect.later (dialect : Dialect) (time : String) : List Piece :=
  match dialect with
  | .postgresql => [.text s!"{time} + make_interval(secs => ", .slot .length, .text ")"]
  | .mysql => [.text "TIMESTAMPADD(MICROSECOND, ", .slot .length, .text s!", {time})"]

/-- What an insert does if there is a row. -/
def Dialect.onConflict (dialect : Dialect) (table : String) : List Piece :=
  match dialect with
  | .postgresql =>
    [.text " ON CONFLICT (name) DO UPDATE SET lock_until = EXCLUDED.lock_until, ",
      .text "locked_at = EXCLUDED.locked_at, locked_by = EXCLUDED.locked_by ",
      .text s!"WHERE {table}.lock_until <= CURRENT_TIMESTAMP"]
  | .mysql => []

/-- What an operation says to a table. -/
def Dialect.layout (dialect : Dialect) (table : String) (op : Operation) : List Piece :=
  let now := match dialect with
    | .postgresql => "CURRENT_TIMESTAMP"
    | .mysql => "UTC_TIMESTAMP(3)"
  match op with
  | .insert =>
    [.text s!"INSERT INTO {table} (name, lock_until, locked_at, locked_by) VALUES (", .slot .name, .text ", "] ++
      dialect.later now ++ [.text s!", {now}, ", .slot .holder, .text ")"] ++ dialect.onConflict table
  | .update =>
    .text s!"UPDATE {table} SET lock_until = " :: dialect.later now ++
      [.text s!", locked_at = {now}, locked_by = ", .slot .holder, .text " WHERE name = ", .slot .name,
        .text s!" AND lock_until <= {now}"]
  | .unlock =>
    .text s!"UPDATE {table} SET lock_until = GREATEST({now}, " :: dialect.later "locked_at" ++
      [.text ") WHERE name = ", .slot .name, .text " AND locked_by = ", .slot .holder]
  | .extend =>
    .text s!"UPDATE {table} SET lock_until = " :: dialect.later now ++
      [.text s!", locked_at = {now} WHERE name = ", .slot .name, .text " AND locked_by = ", .slot .holder,
        .text s!" AND lock_until > {now}"]

/-- A number is a duration in seconds: the whole milliseconds, as far as sixty-four bits reach, divided by a thousand.
Both of them are rounded. -/
def IsSeconds (x : Binary64) (d : Duration) : Prop :=
  ∃ millis : Binary64, millis.IsNearest (min (d.nanos / 1000000) 0xFFFFFFFFFFFFFFFF : Nat) ∧
    x.IsNearest (millis.value / 1000)

/-- A value is a duration as a dialect takes it: in seconds, or in whole microseconds, as far as a signed number of
sixty-four bits reaches. -/
def Dialect.Takes (dialect : Dialect) (d : Duration) (p : Parameter) : Prop :=
  match dialect with
  | .postgresql => ∃ x, p = .double x ∧ IsSeconds x d
  | .mysql => p = .integer (min (d.nanos / 1000) 0x7FFFFFFFFFFFFFFF : Nat)

/-- The values that belong to a holder's operation on a lock. -/
structure Dialect.Carries (dialect : Dialect) (holder : String) (op : Operation) (config : LockConfig)
    (value : Slot → Parameter) : Prop where
  name : value .name = .text config.name
  holder : value .holder = .text holder
  /-- Only a release is about the minimum time. -/
  length : dialect.Takes (if op = .unlock then config.atLeast else config.atMost) (value .length)

/-- A statement says what an operation of a holder on a lock has to say, about the values that belong to it. -/
def Statement.Says (dialect : Dialect) (table holder : String) (op : Operation) (config : LockConfig)
    (s : Statement) : Prop :=
  ∃ value, dialect.Carries holder op config value ∧
    s.filled dialect = some ((dialect.layout table op).flatMap (Piece.symbols value))

/-! ## Table names -/

/-- The name of a table is free of marks. -/
theorem marker_not_mem_of_checkTable {table : String} (dialect : Dialect) (accepted : checkTable table = .ok ()) :
    dialect.marker ∉ table.toList := by
  intro member
  have plain := (checkTable_eq_ok_iff.mp accepted).tableChar _ member
  cases dialect <;> exact absurd plain (by decide)

/-! ## Values -/

/-- The values that are bound for an operation. -/
def Dialect.values (dialect : Dialect) (holder : String) (op : Operation) (config : LockConfig) : Slot → Parameter
  | .name => .text config.name
  | .length =>
    match dialect with
    | .postgresql => .double (seconds (op.duration config))
    | .mysql => .integer (micros (op.duration config))
  | .holder => .text holder

theorem isSeconds_seconds (d : Duration) : IsSeconds (seconds d) d := by
  obtain ⟨millis, whole⟩ : ∃ millis, min (d.nanos / 1000000) 0xFFFFFFFFFFFFFFFF = millis := ⟨_, rfl⟩
  have small : (millis : ℚ) ≤ 2 ^ 64 := by
    have bound : millis ≤ 0xFFFFFFFFFFFFFFFF := whole ▸ Nat.min_le_right ..
    exact_mod_cast bound.trans (by decide)
  have inside {q : ℚ} (bound : q ≤ 2 * 2 ^ 64) : q < 2 ^ (1023 : Int) :=
    calc q ≤ 2 * 2 ^ 64 := bound
      _ < 2 ^ (66 : Int) := by norm_num
      _ ≤ 2 ^ (1023 : Int) := zpow_le_zpow_right₀ (by norm_num) (by decide)
  obtain ⟨m, e, rounded, near⟩ := Binary64.ofNat_nearest (inside (by linarith))
  have twice := near.value_le (Nat.cast_nonneg millis)
  have quotient := Binary64.divNat_nearest (m := m) (e := e) (d := 1000) (by decide) (inside (by push_cast; linarith))
  refine ⟨.finite false m e, whole ▸ near, ?_⟩
  have same : seconds d = (Binary64.ofNat millis).divNat 1000 := by
    rw [← whole]
    rfl
  rw [same, rounded]
  exact_mod_cast quotient

theorem takes_values (dialect : Dialect) (holder : String) (op : Operation) (config : LockConfig) :
    dialect.Takes (op.duration config) (dialect.values holder op config .length) := by
  cases dialect with
  | postgresql => exact ⟨_, rfl, isSeconds_seconds _⟩
  | mysql => exact congrArg Parameter.integer (Nat.cast_min ..).symm

/-- What is bound for an operation belongs to it. -/
theorem carries_values (dialect : Dialect) (holder : String) (op : Operation) (config : LockConfig) :
    dialect.Carries holder op config (dialect.values holder op config) where
  name := rfl
  holder := rfl
  length := by
    have which : (if op = .unlock then config.atLeast else config.atMost) = op.duration config := by cases op <;> rfl
    rw [which]
    exact takes_values dialect holder op config

/-! ## Statements -/

/-- A part of a statement as it is written, with marks for the values. -/
def Dialect.written : Dialect → Piece → String
  | _, .text t => t
  | .mysql, .slot _ => "?"
  | .postgresql, .slot .name => "$1"
  | .postgresql, .slot .length => "$2"
  | .postgresql, .slot .holder => "$3"

/-- Some parts as they are written, one after the other. -/
def Dialect.render (dialect : Dialect) : List Piece → String
  | [] => ""
  | p :: rest => dialect.written p ++ dialect.render rest

/-- The slots of some parts. -/
def slots : List Piece → List Slot
  | [] => []
  | .text _ :: rest => slots rest
  | .slot which :: rest => which :: slots rest

/-- The values that a dialect binds for some parts. -/
def Dialect.bound (dialect : Dialect) (value : Slot → Parameter) (pieces : List Piece) : List Parameter :=
  match dialect with
  | .postgresql => [value .name, value .length, value .holder]
  | .mysql => (slots pieces).map value

-- The texts are long.
set_option maxRecDepth 1024 in
theorem operationText_eq (dialect : Dialect) (table : String) (op : Operation) :
    dialect.operationText table op = dialect.render (dialect.layout table op) := by
  cases dialect <;> cases op <;> delta Dialect.operationText <;>
    simp only [Dialect.layout, Dialect.later, Dialect.onConflict, Dialect.render, Dialect.written, List.cons_append,
      List.nil_append, String.append_assoc, toString] <;> rfl

/-- Every dialect binds the values where its marks stand. -/
theorem parameters_eq (dialect : Dialect) (table holder : String) (op : Operation) (config : LockConfig) :
    (dialect.operation table holder op config).parameters =
      dialect.bound (dialect.values holder op config) (dialect.layout table op) := by
  cases dialect <;> cases op <;> rfl

/-- Text without marks stays as it is. -/
theorem fill_text (dialect : Dialect) {t : List Char} (plain : dialect.marker ∉ t) (rest : List Char)
    (values : List Parameter) :
    dialect.fill (t ++ rest) values = (dialect.fill rest values).map (t.map .char ++ ·) := by
  induction t with
  | nil => simp
  | cons c t ih =>
    obtain ⟨other, plain⟩ := not_or.mp (mt List.mem_cons.mpr plain)
    have unmarked : dialect.fill (c :: (t ++ rest)) values =
        (dialect.fill (t ++ rest) values).map (.char c :: ·) := by
      cases dialect with
      | postgresql => exact (fillByNumber.eq_def ..).trans (if_neg (Ne.symm other))
      | mysql => exact (fillInOrder.eq_def ..).trans (if_neg (Ne.symm other))
    rw [List.cons_append, unmarked, ih plain, Option.map_map]
    rfl

/-- A mark is filled with the value that it stands for. -/
theorem fill_slot (dialect : Dialect) (value : Slot → Parameter) (which : Slot) (pieces : List Piece)
    (rest : List Char) :
    dialect.fill ((dialect.written (.slot which)).toList ++ rest) (dialect.bound value (.slot which :: pieces)) =
      (dialect.fill rest (dialect.bound value pieces)).map (.value (value which) :: ·) := by
  cases dialect <;> cases which <;> rfl

/-- The values that are bound for some parts come to stand in their slots. -/
theorem fill_render (dialect : Dialect) (value : Slot → Parameter) (pieces : List Piece)
    (plain : ∀ p ∈ pieces, p.Plain dialect.marker) :
    dialect.fill (dialect.render pieces).toList (dialect.bound value pieces) =
      some (pieces.flatMap (Piece.symbols value)) := by
  induction pieces with
  | nil => cases dialect <;> rfl
  | cons p rest ih =>
    have later := ih fun q member => plain q (List.mem_cons_of_mem p member)
    rw [Dialect.render, String.toList_append, List.flatMap_cons]
    cases p with
    | text t =>
      have same : dialect.bound value (.text t :: rest) = dialect.bound value rest := by cases dialect <;> rfl
      rw [Dialect.written, fill_text dialect (plain _ List.mem_cons_self), same, later]
      rfl
    | slot which =>
      rw [fill_slot, later]
      rfl

/-- The texts of a layout are free of marks. -/
theorem plain_layout {table : String} (dialect : Dialect) (accepted : checkTable table = .ok ()) (op : Operation) :
    ∀ p ∈ dialect.layout table op, p.Plain dialect.marker := by
  have unmarked := marker_not_mem_of_checkTable dialect accepted
  cases dialect <;> cases op <;>
    simp [Dialect.layout, Dialect.later, Dialect.onConflict, Piece.Plain, Dialect.marker, toString] at unmarked ⊢ <;>
    exact unmarked

/-- The statement of an operation says what the operation has to say. -/
theorem says_operation {table : String} (dialect : Dialect) (accepted : checkTable table = .ok ()) (holder : String)
    (op : Operation) (config : LockConfig) :
    (dialect.operation table holder op config).Says dialect table holder op config := by
  have text : (dialect.operation table holder op config).sql = dialect.render (dialect.layout table op) :=
    operationText_eq dialect table op
  refine ⟨_, carries_values dialect holder op config, ?_⟩
  rw [Statement.filled, text, parameters_eq]
  exact fill_render dialect _ _ (plain_layout dialect accepted op)

end Sql

end TaskLease
