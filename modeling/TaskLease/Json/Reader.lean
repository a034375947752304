import TaskLease.Json.Value

/-!
# Reading JSON

The reader takes one value and the blanks around it, and nothing else. Arrays and objects may lie
within each other 127 deep. Surrogates have to come in pairs.

A value is read by recursion on the depth that is left, its items by recursion on a bound for their
number, for which the length of the text always suffices.
-/

namespace TaskLease

namespace Json

/-- The characters that may stand between the parts of a value. -/
def isSpace (c : Char) : Bool := c == ' ' || c == '\t' || c == '\n' || c == '\r'

/-- The text without the blanks it starts with. -/
def skipSpace (cs : List Char) : List Char := cs.dropWhile isSpace

/-- The value of a hexadecimal digit. -/
def hexValue? (c : Char) : Option Nat :=
  if c.isDigit then some (c.toNat - 48)
  else if 'a' ≤ c ∧ c ≤ 'f' then some (c.toNat - 87)
  else if 'A' ≤ c ∧ c ≤ 'F' then some (c.toNat - 55)
  else none

/-- The value of four hexadecimal digits. -/
def hexQuad? (a b c d : Char) : Option Nat := do
  return ((← hexValue? a) * 16 + (← hexValue? b)) * 256 + (← hexValue? c) * 16 + (← hexValue? d)

/-- The character of a simple escape. -/
def unescape? : Char → Option Char
  | '"' => some '"'
  | '\\' => some '\\'
  | '/' => some '/'
  | 'b' => some '\x08'
  | 'f' => some '\x0c'
  | 'n' => some '\n'
  | 'r' => some '\r'
  | 't' => some '\t'
  | _ => none

/-- Whether a UTF-16 unit is the first of a pair. -/
def isLeadingSurrogate (unit : Nat) : Bool := 0xD800 ≤ unit && unit < 0xDC00

/-- Whether a UTF-16 unit is the second of a pair. -/
def isTrailingSurrogate (unit : Nat) : Bool := 0xDC00 ≤ unit && unit < 0xE000

/-- The characters of a quoted text, read from behind its first quote, and what follows its last. -/
def readQuoted : List Char → Option (List Char × List Char)
  | '"' :: rest => some ([], rest)
  | '\\' :: 'u' :: a :: b :: c :: d :: rest => do
    let unit ← hexQuad? a b c d
    if isLeadingSurrogate unit then
      match rest with
      | '\\' :: 'u' :: e :: f :: g :: h :: rest =>
        let second ← hexQuad? e f g h
        if isTrailingSurrogate second then
          let (text, rest) ← readQuoted rest
          return (Char.ofNat (0x10000 + (unit - 0xD800) * 1024 + (second - 0xDC00)) :: text, rest)
        else none
      | _ => none
    else if isTrailingSurrogate unit then none
    else
      let (text, rest) ← readQuoted rest
      return (Char.ofNat unit :: text, rest)
  | '\\' :: c :: rest => do
    let plain ← unescape? c
    let (text, rest) ← readQuoted rest
    return (plain :: text, rest)
  | c :: rest =>
    if c = '\\' ∨ c.toNat < 32 then none
    else do
      let (text, rest) ← readQuoted rest
      return (c :: text, rest)
  | [] => none

/-- The digits after a number's point, if it has one. -/
def readFraction : List Char → Option (List Char × List Char)
  | '.' :: rest =>
    match Text.takeDigits rest.length rest with
    | ([], _) => none
    | (digits, rest) => some (digits, rest)
  | cs => some ([], cs)

/-- A number's exponent, with its sign, if it has one. -/
def readExponent (cs : List Char) : Option (Option Int × List Char) :=
  let digits (negative : Bool) (cs : List Char) : Option (Option Int × List Char) :=
    (Text.readNumber cs.length cs).map fun r =>
      (some (if negative then -(r.1 : Int) else (r.1 : Int)), r.2)
  match cs with
  | e :: rest =>
    if e = 'e' ∨ e = 'E' then
      match rest with
      | '-' :: rest => digits true rest
      | '+' :: rest => digits false rest
      | rest => digits false rest
    else some (none, e :: rest)
  | [] => some (none, [])

/-- The digits before a number's point: a lone zero, or digits that do not begin with one. -/
def readWhole : List Char → Option (List Char × List Char)
  | '0' :: rest => some (['0'], rest)
  | cs =>
    match Text.takeDigits cs.length cs with
    | ([], _) => none
    | (digits, rest) => some (digits, rest)

/-- A number without its sign. -/
def readUnsigned (negative : Bool) (cs : List Char) : Option (JsonNumeral × List Char) := do
  let (whole, cs) ← readWhole cs
  let (decimals, cs) ← readFraction cs
  let (exponent, rest) ← readExponent cs
  return ({ negative, whole, decimals, exponent }, rest)

/-- A number, as it is written. -/
def readNumeral : List Char → Option (JsonNumeral × List Char)
  | '-' :: rest => readUnsigned true rest
  | cs => readUnsigned false cs

/-- A number. -/
def readNumber (cs : List Char) : Option (JsonNumber × List Char) := do
  let (numeral, rest) ← readNumeral cs
  return (← numeral.number?, rest)

/-- Takes a given word off a text. -/
def dropWord : (word : List Char) → List Char → Option (List Char)
  | [], cs => some cs
  | w :: word, c :: cs => if w = c then dropWord word cs else none
  | _ :: _, [] => none

/-- Items with commas between them, up to a closing character, which is taken off too. There are at
most `bound` of them, and at least one. -/
def readItems {α : Type} (item : List Char → Option (α × List Char)) (close : Char) :
    (bound : Nat) → List Char → Option (List α × List Char)
  | 0, _ => none
  | bound + 1, cs => do
    let (first, cs) ← item cs
    match skipSpace cs with
    | ',' :: rest =>
      let (others, rest) ← readItems item close bound rest
      return (first :: others, rest)
    | c :: rest => if c = close then some ([first], rest) else none
    | [] => none

/-- Items up to a closing character; there may be none. -/
def readSequence {α : Type} (item : List Char → Option (α × List Char)) (close : Char)
    (cs : List Char) : Option (List α × List Char) :=
  match skipSpace cs with
  | c :: rest => if c = close then some ([], rest) else readItems item close cs.length cs
  | [] => none

/-- A member of an object, given how to read the value under a name. -/
def readMember (value : String → List Char → Option (Json × List Char)) (cs : List Char) :
    Option ((String × Json) × List Char) :=
  match skipSpace cs with
  | '"' :: rest => do
    let (name, rest) ← readQuoted rest
    let name := String.ofList name
    match skipSpace rest with
    | ':' :: rest =>
      let (json, rest) ← value name rest
      return ((name, json), rest)
    | _ => none
  | _ => none

/-- A value that is neither an array nor an object, and what follows it. -/
def readScalar : List Char → Option (Json × List Char)
  | '"' :: rest => (readQuoted rest).map fun r => (.string (String.ofList r.1), r.2)
  | 'n' :: rest => (dropWord "ull".toList rest).map fun r => (.null, r)
  | 't' :: rest => (dropWord "rue".toList rest).map fun r => (.bool true, r)
  | 'f' :: rest => (dropWord "alse".toList rest).map fun r => (.bool false, r)
  | cs => (readNumber cs).map fun r => (.number r.1, r.2)

/-- A value with at most `depth` arrays and objects within each other, and what follows it. -/
def readValue : (depth : Nat) → List Char → Option (Json × List Char)
  | depth, cs =>
    match skipSpace cs with
    | '[' :: rest =>
      match depth with
      | 0 => none
      | depth + 1 => (readSequence (readValue depth) ']' rest).map fun r => (.array r.1, r.2)
    | '{' :: rest =>
      match depth with
      | 0 => none
      | depth + 1 =>
        (readSequence (readMember fun _ => readValue depth) '}' rest).map fun r => (.object r.1, r.2)
    | rest => readScalar rest

/-- How deep arrays and objects may lie within each other. -/
def maxDepth : Nat := 127

/-- The value that some characters stand for. -/
def readCharacters (cs : List Char) : Option Json := do
  let (value, rest) ← readValue maxDepth cs
  if (skipSpace rest).isEmpty then some value else none

/-- The value that a text stands for. -/
def read (text : String) : Option Json := readCharacters text.toList

end Json

end TaskLease
