import TaskLease.Json.Reader
import TaskLease.Settings.Yaml.Cursor
import TaskLease.Settings.Yaml.Token

/-!
# Tags, directives and names

The parts of a YAML document that say something about the nodes around them: the tags of nodes, the
directives that explain tags, and the names of anchors. All of these are written on one line.
-/

namespace TaskLease

namespace Yaml

/-! ## Characters -/

/-- Whether a character may stand in an address. -/
def isAddress (c : Char) : Bool :=
  c.isAlphanum || c == '-' || c == '\u0027' || "#;/?:@&=+$,_.!~*()[]%".toList.contains c

/-- Whether a character may stand in a tag that is no address in brackets. -/
def isTagCharacter (c : Char) : Bool := isAddress c && !isFlow c && c != '!'

/-- Whether a character may stand in the name of an anchor. -/
def isName (c : Char) : Bool := !isBlank c && !isBreak c && !isFlow c && c != '\uFEFF'

/-! ## Escapes in addresses -/

/-- Takes an escaped byte. -/
def readEscapedByte (c : Cursor) : Option (Nat × Cursor) :=
  match c.rest with
  | '%' :: high :: low :: _ => do
    return ((← Json.hexValue? high) * 16 + (← Json.hexValue? low), c.advance 3)
  | _ => none

/-- How many bytes follow the first of a character. -/
def furtherBytes? (lead : Nat) : Option Nat :=
  if lead < 0x80 then some 0
  else if lead < 0xC0 then none
  else if lead < 0xE0 then some 1
  else if lead < 0xF0 then some 2
  else if lead < 0xF8 then some 3
  else none

/-- Takes the bytes that follow the first of a character. All bits of the bytes count, those that tell
their places too. -/
def readFurtherBytes : (count : Nat) → (code : Nat) → Cursor → Option (Nat × Cursor)
  | 0, code, c => some (code, c)
  | count + 1, code, c => do
    let (byte, c) ← readEscapedByte c
    if 0x80 ≤ byte ∧ byte < 0xC0 then readFurtherBytes count (code * 256 + byte) c else none

/-- Reads an escaped character. -/
def readEscapedCharacter (c : Cursor) : Option (Char × Cursor) := do
  let (lead, c) ← readEscapedByte c
  let (code, c) ← readFurtherBytes (← furtherBytes? lead) lead c
  if h : code.isValidChar then some (Char.ofNatAux code h, c) else none

/-- Takes characters of a kind, some of them escaped. -/
def takeAddress (kind : Char → Bool) : (bound : Nat) → (said : List Char) → Cursor →
    Option (List Char × Cursor)
  | 0, said, c => some (said, c)
  | bound + 1, said, c =>
    match c.head? with
    | some x =>
      if !kind x then some (said, c)
      else if x == '%' then do
        let (x, c) ← readEscapedCharacter c
        takeAddress kind bound (said ++ [x]) c
      else takeAddress kind bound (said ++ [x]) (c.advance 1)
    | none => some (said, c)

/-- Reads characters of a kind, some of them escaped. -/
def readAddress (kind : Char → Bool) (c : Cursor) : Option (List Char × Cursor) :=
  takeAddress kind (c.rest.length + 1) [] c

/-! ## Tags -/

/-- Reads what may be the handle of a tag: an exclamation mark, a word, and another mark, if there is
one. -/
def readHandle (c : Cursor) : Option (List Char × Cursor) :=
  if c.sees 0 (· == '!') then
    let c := c.advance 1
    let word := c.run isWord
    let c := c.advance word.length
    if c.sees 0 (· == '!') then some ('!' :: word ++ ['!'], c.advance 1) else some ('!' :: word, c)
  else none

/-- Whether the handle of a tag is more than one mark, and ends with one. -/
def isNamedHandle (handle : List Char) : Bool := 2 ≤ handle.length && handle.getLast? == some '!'

/-- Reads an address in brackets, from the mark before it on. -/
def readVerbatim (c : Cursor) : Option (Tag × Cursor) := do
  let (suffix, c) ← readAddress isAddress (c.advance 2)
  if c.sees 0 (· == '>') then some (⟨"", String.ofList suffix⟩, c.advance 1) else none

/-- Reads a tag that is no address in brackets. What looks like a handle without a second mark belongs to
the suffix. A lone mark is a tag of its own. -/
def readShorthand (c : Cursor) : Option (Tag × Cursor) := do
  let (handle, c) ← readHandle c
  let (suffix, c) ← readAddress isTagCharacter c
  if isNamedHandle handle then
    if suffix.isEmpty then none else some (⟨String.ofList handle, String.ofList suffix⟩, c)
  else
    let suffix := handle.drop 1 ++ suffix
    some (if suffix.isEmpty then ⟨"", "!"⟩ else ⟨"!", String.ofList suffix⟩, c)

/-- Reads the tag of a node. -/
def readTag (inFlow : Bool) (c : Cursor) : Option (Tag × Cursor) := do
  let (tag, c) ← if c.sees 1 (· == '<') then readVerbatim c else readShorthand c
  if c.wordEnds 0 || (inFlow && c.sees 0 isFlow) then some (tag, c) else none

/-- Reads the name of an anchor, from the mark before it on. -/
def readName (c : Cursor) : Option (String × Cursor) :=
  let c := c.advance 1
  let name := c.run isName
  if name.isEmpty then none else some (String.ofList name, c.advance name.length)

/-! ## Directives -/

/-- Skips a number of at most nine digits. -/
def skipNumber (c : Cursor) : Option Cursor :=
  let length := (c.run Char.isDigit).length
  if 0 < length ∧ length ≤ 9 then some (c.advance length) else none

/-- Reads what a version directive says. -/
def readVersion (c : Cursor) : Option (Token × Cursor) := do
  let c ← skipNumber c.skipBlanks
  if c.sees 0 (· == '.') then return (.version, ← skipNumber (c.advance 1)) else none

/-- Reads what a directive for tags says: a handle, and what tags with it begin with. -/
def readHandleMeaning (c : Cursor) : Option (Token × Cursor) := do
  let (handle, c) ← readHandle c.skipBlanks
  if !(isNamedHandle handle || handle = ['!']) then none
  let c := c.skipBlanks
  let (first, c) ←
    if c.sees 0 (· == '!') then some (['!'], c.advance 1)
    else if c.sees 0 isTagCharacter then some ([], c)
    else none
  let (rest, c) ← readAddress isAddress c
  if c.wordEnds 0 then
    some (.handle (String.ofList handle) (String.ofList (first ++ rest)), c)
  else none

/-- Reads a directive, with the end of its line. One that nobody knows says nothing, but takes the place
of one for tags. -/
def readDirective (c : Cursor) : Option (Token × Cursor) := do
  let c := c.advance 1
  let name := c.run isWord
  let c := c.advance name.length
  if name.isEmpty || !c.wordEnds 0 then none
  let (token, c) ← match String.ofList name with
    | "YAML" => readVersion c
    | "TAG" => readHandleMeaning c
    | _ => some (.handle "" "", c.lineEnd)
  let (_, c) ← c.skipRest true
  if c.atEnd then some (token, c) else if c.atLineEnd then some (token, c.nextLine) else none

end Yaml

end TaskLease
