import TaskLease.Settings.Value
import TaskLease.Table

/-!
# The tables of a TOML document

A table may be opened by a header once, filled through dotted keys in one place, or come into being
because a table inside it was opened; a list of tables grows by one with every header of its own. Nothing
that is there may be given a second time.
-/

namespace TaskLease

namespace Toml

/-- How a table came into being. -/
inductive Origin where
  /-- Because of a table inside it. -/
  | implied
  /-- By its header. -/
  | header
  /-- Through a dotted key. -/
  | dotted
deriving DecidableEq, Repr

/-- What a key of a table leads to. -/
inductive Node where
  | leaf (value : SettingValue)
  | table (origin : Origin) (entries : List (String × Node))
  /-- A list of tables; the last one is still open. -/
  | tables (earlier : List SettingValue) (last : List (String × Node))

/-- The entries of a table under construction. -/
abbrev Entries := List (String × Node)

mutual

/-- The finished value of a node. -/
def Node.value : Node → SettingValue
  | .leaf value => value
  | .table _ entries => .table (values entries)
  | .tables earlier last => .list (earlier ++ [.table (values last)])

/-- The finished values of some entries. -/
def values : List (String × Node) → List (String × SettingValue)
  | [] => []
  | (key, node) :: rest => (key, node.value) :: values rest

end

/-- Opens the table at a path. -/
def openTable : List String → Entries → Option Entries
  | [], _ => none
  | [key], entries =>
    match entries.lookup key with
    | none => some (Table.put key (.table .header []) entries)
    | some (.table .implied inner) => some (Table.put key (.table .header inner) entries)
    | some _ => none
  | key :: path, entries =>
    match entries.lookup key with
    | none => (openTable path []).map fun inner => Table.put key (.table .implied inner) entries
    | some (.table origin inner) =>
      (openTable path inner).map fun inner => Table.put key (.table origin inner) entries
    | some (.tables earlier last) =>
      (openTable path last).map fun last => Table.put key (.tables earlier last) entries
    | some (.leaf _) => none

/-- Adds a table to the list at a path. -/
def addTable : List String → Entries → Option Entries
  | [], _ => none
  | [key], entries =>
    match entries.lookup key with
    | none => some (Table.put key (.tables [] []) entries)
    | some (.tables earlier last) =>
      some (Table.put key (.tables (earlier ++ [.table (values last)]) []) entries)
    | some _ => none
  | key :: path, entries =>
    match entries.lookup key with
    | none => (addTable path []).map fun inner => Table.put key (.table .implied inner) entries
    | some (.table origin inner) =>
      (addTable path inner).map fun inner => Table.put key (.table origin inner) entries
    | some (.tables earlier last) =>
      (addTable path last).map fun last => Table.put key (.tables earlier last) entries
    | some (.leaf _) => none

/-- Gives a value to a dotted key. Tables that have come into being through headers of other tables or
through dotted keys may be filled. -/
def assign (value : SettingValue) : List String → Entries → Option Entries
  | [], _ => none
  | [key], entries =>
    match entries.lookup key with
    | none => some (Table.put key (.leaf value) entries)
    | some _ => none
  | key :: path, entries =>
    match entries.lookup key with
    | none => (assign value path []).map fun inner => Table.put key (.table .dotted inner) entries
    | some (.table .header _) => none
    | some (.table origin inner) =>
      (assign value path inner).map fun inner => Table.put key (.table origin inner) entries
    | some _ => none

/-- Gives a value to a key of the table that is open at a path. -/
def assignIn (value : SettingValue) (keys : List String) : (place : List String) → Entries → Option Entries
  | [], entries => assign value keys entries
  | key :: path, entries =>
    match entries.lookup key with
    | some (.table origin inner) =>
      (assignIn value keys path inner).map fun inner => Table.put key (.table origin inner) entries
    | some (.tables earlier last) =>
      (assignIn value keys path last).map fun last => Table.put key (.tables earlier last) entries
    | _ => none

end Toml

end TaskLease
