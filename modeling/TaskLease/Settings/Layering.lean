import TaskLease.Settings.Value
import TaskLease.Table

/-!
# Layers of settings

Later sources of settings lie over earlier ones. Tables are merged key by key, at every depth; anything
else replaces what was there before. At the top a key may be a path: dots stand between the keys of tables,
and brackets around the places in lists.
-/

namespace TaskLease

/-- A step of a path into a tree of settings. -/
inductive PathStep where
  /-- Into a table. -/
  | key (name : String)
  /-- Into a list. A negative place counts from the end. -/
  | place (index : Int)
deriving DecidableEq, Repr

namespace SettingValue

/-- The entries of a table; anything else has none. -/
def entries : SettingValue → List (String × SettingValue)
  | .table entries => entries
  | _ => []

/-- The items of a list; anything else has none. -/
def items : SettingValue → List SettingValue
  | .list items => items
  | _ => []

mutual

/-- A value laid over what is there. Anything that is no table gives way to a table. -/
def onto : SettingValue → (below : SettingValue) → SettingValue
  | .table incoming, below => .table (entriesOnto incoming below.entries)
  | value, _ => value

/-- Entries laid over those of a table. -/
def entriesOnto : List (String × SettingValue) → (present : List (String × SettingValue)) →
    List (String × SettingValue)
  | [], present => present
  | (key, value) :: rest, present =>
    entriesOnto rest (Table.put key (value.onto ((present.lookup key).getD .nothing)) present)

end

mutual

/-- A value whose tables have every key once, with the last of the values it was given. -/
def lastOnly : SettingValue → SettingValue
  | .list items => .list (itemsLastOnly items)
  | .table entries => .table (entriesLastOnly [] entries)
  | value => value

/-- The items of a list, each with every key once. -/
def itemsLastOnly : List SettingValue → List SettingValue
  | [] => []
  | item :: rest => item.lastOnly :: itemsLastOnly rest

/-- Entries put into others, each key once. -/
def entriesLastOnly (kept : List (String × SettingValue)) :
    List (String × SettingValue) → List (String × SettingValue)
  | [] => kept
  | (key, value) :: rest => entriesLastOnly (Table.put key value.lastOnly kept) rest

end

/-- The items of a list with one at a place among them, and where that is. Nothing stands at the places
that are new: behind the last one, or before the first. -/
def reachPlace (items : List SettingValue) (index : Int) : List SettingValue × Nat :=
  if 0 ≤ index then
    (items ++ List.replicate (index.natAbs + 1 - items.length) .nothing, index.natAbs)
  else
    (List.replicate (index.natAbs - items.length) .nothing ++ items, items.length - index.natAbs)

/-- A value laid over what is at the end of a path. What stands in the way of the path gives way to
it. -/
def ontoPath (value : SettingValue) : List PathStep → (below : SettingValue) → SettingValue
  | [], below => value.onto below
  | .key name :: path, below =>
    let present := below.entries
    .table (Table.put name (value.ontoPath path ((present.lookup name).getD .nothing)) present)
  | .place index :: path, below =>
    let (items, n) := reachPlace below.items index
    .list (items.set n (value.ontoPath path (items.getD n .nothing)))

/-! ## Paths -/

/-- Whether a character can be part of a key in a path. -/
def isKeyCharacter (c : Char) : Bool := c.isAlphanum || c == '_' || c == '-'

/-- Reads a key of a path. -/
def readKey (cs : List Char) : Option (PathStep × List Char) :=
  let name := cs.takeWhile isKeyCharacter
  if name.isEmpty then none else some (.key (String.ofList name), cs.dropWhile isKeyCharacter)

/-- Whether a character may stand between a bracket and the number in it. -/
def isPathBlank (c : Char) : Bool := c == ' ' || c == '\t'

/-- Reads a place of a path from behind its bracket. -/
def readPlace (cs : List Char) : Option (PathStep × List Char) := do
  let (negative, cs) := Numeral.takeSign (cs.dropWhile isPathBlank)
  let (n, cs) ← Text.readNumber cs.length cs
  let index : Int := if negative then -(n : Int) else n
  if index < minInteger ∨ maxInteger < index then none
  match cs.dropWhile isPathBlank with
  | ']' :: rest => some (.place index, rest)
  | _ => none

/-- Reads the steps of a path behind the first. -/
def readSteps : (bound : Nat) → List Char → Option (List PathStep)
  | _, [] => some []
  | 0, _ => none
  | bound + 1, c :: cs => do
    let (step, rest) ← if c = '.' then readKey cs else if c = '[' then readPlace cs else none
    return step :: (← readSteps bound rest)

/-- The path that a key at the top means; the key itself, if it is no path. -/
def pathOf (key : String) : List PathStep :=
  let path : Option (List PathStep) := do
    let (first, rest) ← readKey key.toList
    return first :: (← readSteps rest.length rest)
  path.getD [.key key]

/-- The settings of one more source laid over the settings so far. -/
def addSource (below : SettingValue) (entries : List (String × SettingValue)) : SettingValue :=
  entries.foldl (fun below e => e.2.ontoPath (pathOf e.1) below) below

end SettingValue

end TaskLease
