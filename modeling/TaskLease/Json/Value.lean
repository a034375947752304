import TaskLease.Json.Number
import TaskLease.Number.Shortest

/-!
# JSON values and their text

Objects keep their members in order, repeated names included, because some readers of a value have
to refuse repetitions. A reader can tell `1` from `1.0`.

Two printers are given: `compact` on one line, and `pretty` with two blanks for each level.
-/

namespace TaskLease

/-- A JSON value. -/
inductive Json where
  | null
  | bool (value : Bool)
  | number (value : JsonNumber)
  | string (value : String)
  | array (items : List Json)
  | object (members : List (String × Json))
deriving Repr

namespace Json

instance : Inhabited Json := ⟨.null⟩

/-- An integer as a JSON value. -/
def ofInt (n : Int) : Json := .number (.integer n)

/-- A natural number as a JSON value. -/
def ofNat (n : Nat) : Json := ofInt n

/-- The hexadecimal digit of a number below sixteen. -/
def hexDigit (n : Nat) : Char := Nat.digitChar n

/-- How a character stands in a quoted text. Quotes, backslashes and control characters are escaped,
all others stand for themselves. -/
def escape (c : Char) : List Char :=
  if c = '"' then ['\\', '"']
  else if c = '\\' then ['\\', '\\']
  else if c = '\n' then ['\\', 'n']
  else if c = '\r' then ['\\', 'r']
  else if c = '\t' then ['\\', 't']
  else if c = '\x08' then ['\\', 'b']
  else if c = '\x0c' then ['\\', 'f']
  else if c.toNat < 32 then ['\\', 'u', '0', '0', hexDigit (c.toNat / 16), hexDigit (c.toNat % 16)]
  else [c]

/-- A text in quotes. -/
def quote (text : String) : List Char := '"' :: text.toList.flatMap escape ++ ['"']

/-- The text of a number. -/
def numberText : JsonNumber → List Char
  | .integer n => Text.signedNumeral n
  | .double x => x.text.toList

/-- A comma between texts. -/
def separated (separator : List Char) : List (List Char) → List Char
  | [] => []
  | [text] => text
  | text :: rest => text ++ separator ++ separated separator rest

mutual

/-- The text of a value on one line, without blanks. -/
def compact : Json → List Char
  | .null => "null".toList
  | .bool true => "true".toList
  | .bool false => "false".toList
  | .number n => numberText n
  | .string text => quote text
  | .array items => '[' :: separated [','] (compactItems items) ++ [']']
  | .object members => '{' :: separated [','] (compactMembers members) ++ ['}']

/-- The texts of an array's items. -/
def compactItems : List Json → List (List Char)
  | [] => []
  | item :: rest => compact item :: compactItems rest

/-- The texts of an object's members. -/
def compactMembers : List (String × Json) → List (List Char)
  | [] => []
  | (name, value) :: rest => (quote name ++ ':' :: compact value) :: compactMembers rest

end

/-- A new line at a level of indentation. -/
def newline (level : Nat) : List Char := '\n' :: List.replicate (2 * level) ' '

mutual

/-- The text of a value over several lines, each level indented by two blanks. -/
def prettyAt (level : Nat) : Json → List Char
  | .null => "null".toList
  | .bool true => "true".toList
  | .bool false => "false".toList
  | .number n => numberText n
  | .string text => quote text
  | .array [] => "[]".toList
  | .array (item :: rest) =>
    '[' :: newline (level + 1)
      ++ separated (',' :: newline (level + 1)) (prettyItems (level + 1) (item :: rest))
      ++ newline level ++ [']']
  | .object [] => ['{', '}']
  | .object (member :: rest) =>
    '{' :: newline (level + 1)
      ++ separated (',' :: newline (level + 1)) (prettyMembers (level + 1) (member :: rest))
      ++ newline level ++ ['}']

/-- The texts of an array's items at a level. -/
def prettyItems (level : Nat) : List Json → List (List Char)
  | [] => []
  | item :: rest => prettyAt level item :: prettyItems level rest

/-- The texts of an object's members at a level. -/
def prettyMembers (level : Nat) : List (String × Json) → List (List Char)
  | [] => []
  | (name, value) :: rest =>
    (quote name ++ ':' :: ' ' :: prettyAt level value) :: prettyMembers level rest

end

/-- The text of a value over several lines. -/
def pretty (value : Json) : String := String.ofList (prettyAt 0 value)

/-- The text of a value on one line. -/
def render (value : Json) : String := String.ofList (compact value)

/-- The first member of a name. -/
def member? (name : String) : Json → Option Json
  | .object members => members.lookup name
  | _ => none

end Json

end TaskLease
