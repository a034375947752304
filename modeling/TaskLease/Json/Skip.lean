import TaskLease.Json.Reader

/-!
# Passing over JSON

A reader that asks for some members of an object alone passes over the others. Of these only the grammar
counts: they may lie within each other as deep as they like, a number may be as big as it likes, and half of
a pair of surrogates does no harm.

Values are passed over one piece at a time, with a stack of the brackets that have yet to be closed; every
piece but the step into an item takes a character, which bounds the recursion.
-/

namespace TaskLease

namespace Json

/-- Passes over a quoted text from behind its first quote. -/
def skipQuoted : List Char → Option (List Char)
  | '"' :: rest => some rest
  | '\\' :: 'u' :: a :: b :: c :: d :: rest => if (hexQuad? a b c d).isSome then skipQuoted rest else none
  | '\\' :: c :: rest => if (unescape? c).isSome then skipQuoted rest else none
  | c :: rest => if c = '\\' ∨ c.toNat < 32 then none else skipQuoted rest
  | [] => none

/-- Passes over a value that is neither an array nor an object. -/
def skipScalar : List Char → Option (List Char)
  | '"' :: rest => skipQuoted rest
  | 'n' :: rest => dropWord "ull".toList rest
  | 't' :: rest => dropWord "rue".toList rest
  | 'f' :: rest => dropWord "alse".toList rest
  | cs => (readNumeral cs).map (·.2)

/-- Passes over the name of a member and the colon behind it. -/
def skipName (cs : List Char) : Option (List Char) :=
  match skipSpace cs with
  | '"' :: rest =>
    match (skipQuoted rest).map skipSpace with
    | some (':' :: rest) => some rest
    | _ => none
  | _ => none

/-- What has to come next in a value that is passed over. -/
inductive Expected where
  | value
  /-- A member of an object. -/
  | member
  /-- What follows a value. -/
  | rest
deriving DecidableEq, Repr

/-- What comes behind a comma, given the bracket that will close its array or object. -/
def Expected.behindComma (close : Char) : Expected := if close = ']' then .value else .member

/-- Passes over values up to the end of the outermost one. -/
def skipFrom : (bound : Nat) → (closes : List Char) → Expected → List Char → Option (List Char)
  | 0, _, _, _ => none
  | bound + 1, closes, expected, cs =>
    let opened (close : Char) (cs : List Char) : Option (List Char) :=
      match skipSpace cs with
      | c :: rest =>
        if c = close then skipFrom bound closes .rest rest
        else skipFrom bound (close :: closes) (.behindComma close) (c :: rest)
      | [] => none
    match expected with
    | .member => (skipName cs).bind (skipFrom bound closes .value)
    | .value =>
      match skipSpace cs with
      | '[' :: rest => opened ']' rest
      | '{' :: rest => opened '}' rest
      | cs => (skipScalar cs).bind (skipFrom bound closes .rest)
    | .rest =>
      match closes with
      | [] => some cs
      | close :: outer =>
        match skipSpace cs with
        | ',' :: rest => skipFrom bound closes (.behindComma close) rest
        | c :: rest => if c = close then skipFrom bound outer .rest rest else none
        | [] => none

/-- Passes over a value. -/
def skipValue (cs : List Char) : Option (List Char) := skipFrom (cs.length + 2) [] .value cs

/-- The value that a text stands for. If that is an object, only members of some names are looked at, and
null stands for the values of all others. -/
def readOnly (names : List String) (text : String) : Option Json := do
  let value (name : String) (cs : List Char) : Option (Json × List Char) :=
    if names.contains name then readValue (maxDepth - 1) cs
    else (skipValue cs).map fun rest => (.null, rest)
  match skipSpace text.toList with
  | '{' :: rest =>
    let (members, rest) ← readSequence (readMember value) '}' rest
    if (skipSpace rest).isEmpty then return .object members else none
  | cs => readCharacters cs

end Json

end TaskLease
