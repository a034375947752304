import TaskLease.Settings.TomlScalar
import TaskLease.Settings.TomlTree

/-!
# TOML documents

A document is a sequence of lines: headers that open tables, and keys with their values. Values may be
lists and tables in braces, both of which may reach over lines.

Lists and tables in braces lie within each other at most eighty deep, and keys have at most eighty parts.
-/

namespace TaskLease

namespace Toml

/-! ## Between the parts -/

/-- The text without the blanks that it starts with. -/
def skipBlanks (cs : List Char) : List Char := cs.dropWhile fun c => c = ' ' || c = '\t'

/-- The text without the comment that it starts with, if it does; it ends before the end of the line. -/
def skipComment : List Char → Option (List Char)
  | '#' :: cs =>
    let rest := cs.dropWhile fun c => isPrintable c
    match rest with
    | [] | '\n' :: _ | '\r' :: '\n' :: _ => some rest
    | _ => none
  | cs => some cs

/-- The text behind the end of a line, if there is one. -/
def dropLineEnd : List Char → Option (List Char)
  | '\n' :: cs => some cs
  | '\r' :: '\n' :: cs => some cs
  | _ => none

/-- The text without the blanks, comments and line ends that it starts with, over so many lines at most. -/
def skipSpace : (bound : Nat) → List Char → Option (List Char)
  | 0, cs => some cs
  | bound + 1, cs => do
    let cs ← skipComment (skipBlanks cs)
    match dropLineEnd cs with
    | some cs => skipSpace bound cs
    | none => some cs

/-- The text without the blanks, comments and line ends that it starts with, however many. -/
def skipLines (cs : List Char) : Option (List Char) := skipSpace (cs.length + 1) cs

/-! ## Keys -/

/-- The characters of a key without quotes. -/
def isBareCharacter (c : Char) : Bool := c.isAlphanum || c == '_' || c == '-'

/-- Reads one part of a key. -/
def readPart (cs : List Char) : Option (String × List Char) :=
  match cs with
  | '"' :: rest => (readBasic [] rest).map fun (said, rest) => (String.ofList said, rest)
  | '\u0027' :: rest => (readLiteral [] rest).map fun (said, rest) => (String.ofList said, rest)
  | _ =>
    let part := cs.takeWhile isBareCharacter
    if part.isEmpty then none else some (String.ofList part, cs.dropWhile isBareCharacter)

/-- How deep values may lie within each other, and how many parts a key may have. -/
def maxDepth : Nat := 80

/-- Reads a key of so many parts at most. -/
def readParts : (bound : Nat) → List Char → Option (List String × List Char)
  | 0, _ => none
  | bound + 1, cs => do
    let (part, rest) ← readPart (skipBlanks cs)
    match skipBlanks rest with
    | '.' :: rest =>
      let (parts, rest) ← readParts bound rest
      return (part :: parts, rest)
    | rest => return ([part], rest)

/-- Reads a key with its dots. -/
def readKey (cs : List Char) : Option (List String × List Char) := readParts maxDepth cs

/-! ## Values -/

/-- A value and the text behind it. -/
abbrev Read := Option (SettingValue × List Char)

/-- Reads the items of a list from behind its bracket. -/
def readItems (value : List Char → Read) : (bound : Nat) → List SettingValue → List Char → Read
  | 0, _, _ => none
  | bound + 1, items, cs => do
    match ← skipLines cs with
    | ']' :: rest => return (.list items, rest)
    | cs =>
      let (item, rest) ← value cs
      match ← skipLines rest with
      | ',' :: rest => readItems value bound (items ++ [item]) rest
      | ']' :: rest => return (.list (items ++ [item]), rest)
      | _ => none

/-- Reads a key and its value; `skip` takes off what may stand between them. -/
def readPair (skip : List Char → Option (List Char)) (value : List Char → Read) (cs : List Char) :
    Option (List String × SettingValue × List Char) := do
  let (keys, rest) ← readKey cs
  match ← skip rest with
  | '=' :: rest =>
    let (found, rest) ← value (← skip rest)
    return (keys, found, rest)
  | _ => none

/-- Reads the pairs of a table from behind its brace. -/
def readPairs (value : List Char → Read) : (bound : Nat) → Entries → List Char → Read
  | 0, _, _ => none
  | bound + 1, entries, cs => do
    match ← skipLines cs with
    | '\x7d' :: rest => return (.table (values entries), rest)
    | cs =>
      let (keys, found, rest) ← readPair skipLines value cs
      let entries ← assign found keys entries
      match ← skipLines rest with
      | ',' :: rest => readPairs value bound entries rest
      | '\x7d' :: rest => return (.table (values entries), rest)
      | _ => none

/-- Reads a value with at most `depth` lists and tables within each other. -/
def readValue : (depth : Nat) → List Char → Read
  | depth, cs =>
    match cs with
    | '[' :: rest =>
      match depth with
      | 0 => none
      | depth + 1 => readItems (readValue depth) (rest.length + 1) [] rest
    | '\x7b' :: rest =>
      match depth with
      | 0 => none
      | depth + 1 => readPairs (readValue depth) (rest.length + 1) [] rest
    | _ => readScalar cs

/-! ## Documents -/

/-- A document as far as it has been read: its tables, and the path of the one that is open. -/
structure Progress where
  entries : Entries := []
  path : List String := []

/-- Reads what a line has to say. -/
def readLine (p : Progress) (cs : List Char) : Option (Progress × List Char) :=
  match cs with
  | '[' :: '[' :: rest => do
    let (keys, rest) ← readKey rest
    match rest with
    | ']' :: ']' :: rest => return ({ entries := ← addTable keys p.entries, path := keys }, rest)
    | _ => none
  | '[' :: rest => do
    let (keys, rest) ← readKey rest
    match rest with
    | ']' :: rest => return ({ entries := ← openTable keys p.entries, path := keys }, rest)
    | _ => none
  | _ => do
    let (keys, found, rest) ← readPair (fun cs => some (skipBlanks cs)) (readValue maxDepth) cs
    return ({ p with entries := ← assignIn found keys p.path p.entries }, rest)

/-- Reads the lines of a document. -/
def readDocument : (bound : Nat) → Progress → List Char → Option Entries
  | 0, _, _ => none
  | bound + 1, p, cs => do
    match ← skipLines cs with
    | [] => return p.entries
    | cs =>
      let (p, rest) ← readLine p cs
      let rest ← skipComment (skipBlanks rest)
      match rest with
      | [] => return p.entries
      | rest => readDocument bound p (← dropLineEnd rest)

/-- The text without the mark that some editors put at its start. -/
def dropMark : List Char → List Char
  | '\uFEFF' :: cs => cs
  | cs => cs

/-- The settings in a document. -/
def read (text : String) : Option (List (String × SettingValue)) :=
  let cs := dropMark text.toList
  (readDocument (cs.length + 1) {} cs).map values

end Toml

end TaskLease
