/-!
# Places in a YAML document

What a place in a document knows: the text that is left, how many characters, lines and columns lie
before it, and whether it is the first on its line that is no blank. Lines end with a line feed, a carriage
return or both.
-/

namespace TaskLease

namespace Yaml

/-- Whether a character ends a line. -/
def isBreak (c : Char) : Bool := c == '\n' || c == '\r'

/-- Whether a character is a blank within a line. -/
def isBlank (c : Char) : Bool := c == ' ' || c == '\t'

/-- Whether a character has a meaning of its own between brackets. -/
def isFlow (c : Char) : Bool := c == ',' || c == '[' || c == ']' || c == '\x7b' || c == '\x7d'

/-- Whether a character can be part of a word: a letter, a digit, a hyphen or an underscore. -/
def isWord (c : Char) : Bool := c.isAlphanum || c == '-' || c == '_'

/-- The number of line ends that a text begins with, or of spaces, as `isCounted` tells. -/
def countWhile (isCounted : Char → Bool) (cs : List Char) : Nat := (cs.takeWhile isCounted).length

/-- A place in a document. -/
structure Cursor where
  rest : List Char
  /-- The characters before this place. -/
  index : Nat := 0
  line : Nat := 0
  /-- The characters before this place on its line. -/
  column : Nat := 0
  /-- Whether nothing but blanks lies before this place on its line. -/
  fresh : Bool := true

namespace Cursor

/-- The character at a place. -/
def head? (c : Cursor) : Option Char := c.rest.head?

/-- Whether a character of a kind stands at a place, or so many characters behind it. -/
def sees (c : Cursor) (behind : Nat) (kind : Char → Bool) : Bool := (c.rest[behind]?).any kind

/-- Whether the document ends at a place, or so many characters behind it. -/
def endsBehind (c : Cursor) (behind : Nat) : Bool := c.rest.length ≤ behind

/-- Whether the document ends here. -/
def atEnd (c : Cursor) : Bool := c.rest.isEmpty

/-- Whether the line ends at a place. -/
def atLineEnd (c : Cursor) : Bool := c.atEnd || c.sees 0 isBreak

/-- Whether a word ends at a place, or so many characters behind it: with a blank, a line or the
document. -/
def wordEnds (c : Cursor) (behind : Nat) : Bool :=
  c.endsBehind behind || c.sees behind fun x => isBlank x || isBreak x

/-- The place behind some characters of the same line. -/
def advance (c : Cursor) (n : Nat) : Cursor :=
  { c with rest := c.rest.drop n, index := c.index + n, column := c.column + n, fresh := false }

/-- The place behind some blanks. -/
def advanceBlanks (c : Cursor) (n : Nat) : Cursor := { c.advance n with fresh := c.fresh }

/-- The place behind a line end. -/
def nextLine (c : Cursor) : Cursor :=
  let n := match c.rest with
    | '\r' :: '\n' :: _ => 2
    | _ => 1
  { rest := c.rest.drop n, index := c.index + n, line := c.line + 1 }

/-- The place behind the characters of a kind that stand here, all on this line. -/
def skipWhile (c : Cursor) (kind : Char → Bool) : Cursor := c.advance (countWhile kind c.rest)

/-- The place behind the blanks that stand here. -/
def skipBlanks (c : Cursor) : Cursor := c.advanceBlanks (countWhile isBlank c.rest)

/-- The characters of a kind that stand here. -/
def run (c : Cursor) (kind : Char → Bool) : List Char := c.rest.takeWhile kind

/-- The end of the line. -/
def lineEnd (c : Cursor) : Cursor := c.skipWhile fun x => !isBreak x

/-- The blanks that stand here, and the place behind them and the comment after them. A comment has to
follow a blank. -/
def skipRest (c : Cursor) (tabs : Bool) : Option (List Char × Cursor) :=
  let blanks := c.run fun x => x == ' ' || (tabs && x == '\t')
  let c := c.advanceBlanks blanks.length
  if c.sees 0 (· == '#') then if blanks.isEmpty then none else some (blanks, c.lineEnd)
  else some (blanks, c)

/-- Whether a line begins here with three marks and no word. -/
def isMark (c : Cursor) (mark : Char) : Bool :=
  c.column == 0 && c.rest.take 3 == [mark, mark, mark] && c.wordEnds 3

/-- Whether a document begins or ends here. -/
def isDocumentMark (c : Cursor) : Bool := c.isMark '-' || c.isMark '.'

end Cursor

end Yaml

end TaskLease
