import TaskLease.Json.Reader
import TaskLease.Settings.Yaml.Cursor

/-!
# Scalars of a YAML document

Scalars come plain, in quotes of two kinds, and as blocks of lines. Plain and quoted ones may go over
several lines, which are folded: one line end counts for a space, and of several the first is dropped.
Folded blocks do the same except next to lines that are indented further.

Every reader takes the column of the block around, which a scalar has to be indented beyond.
-/

namespace TaskLease

namespace Yaml

/-! ## Between words -/

/-- What lies between two words of a scalar. -/
structure Gap where
  /-- The blanks, if no line ends between the words. -/
  blanks : List Char := []
  /-- The line ends. -/
  breaks : Nat := 0
  /-- Whether a line end in front of these was escaped. -/
  joined : Bool := false

namespace Gap

/-- Whether the words stand on different lines. -/
def isMultiline (g : Gap) : Bool := g.joined || 0 < g.breaks

/-- What a gap counts for. -/
def folded (g : Gap) : List Char :=
  if g.joined then List.replicate g.breaks '\n'
  else match g.breaks with
    | 0 => g.blanks
    | 1 => [' ']
    | n + 2 => List.replicate (n + 1) '\n'

/-- Takes a gap. Tabs do not indent: before `indent` there may be none, or, where `blankLines` tells so, none
on a line that has anything else but a comment. -/
def take (blankLines : Bool) (indent : Int) : (bound : Nat) → Gap → Cursor → Option (Gap × Cursor)
  | 0, _, _ => none
  | bound + 1, g, c =>
    match c.head? with
    | none => some (g, c)
    | some x =>
      if isBreak x then take blankLines indent bound { g with blanks := [], breaks := g.breaks + 1 } c.nextLine
      else if !isBlank x then some (g, c)
      else if !g.isMultiline then
        take blankLines indent bound { g with blanks := g.blanks ++ [x] } (c.advanceBlanks 1)
      else if x == '\t' && c.column < indent then
        if blankLines then
          match c.skipRest true with
          | some (_, c) => if c.atLineEnd then take blankLines indent bound g c else none
          | none => none
        else none
      else take blankLines indent bound g (c.advanceBlanks 1)

end Gap

/-! ## Plain scalars -/

/-- Whether a plain scalar goes on at a place. It does not where a key ends, and between brackets not
where these mean something. -/
def Cursor.isPlain (c : Cursor) (inFlow : Bool) : Bool :=
  !c.wordEnds 0 &&
    !(c.sees 0 (· == ':') && (c.wordEnds 1 || (inFlow && c.sees 1 isFlow))) &&
    !(inFlow && c.sees 0 isFlow)

/-- Takes the characters of a plain scalar up to the next blank. -/
def takePlainWord (inFlow : Bool) : (bound : Nat) → (said : List Char) → Cursor → List Char × Cursor
  | 0, said, c => (said, c)
  | bound + 1, said, c =>
    match c.head? with
    | some x => if c.isPlain inFlow then takePlainWord inFlow bound (x :: said) (c.advance 1) else (said, c)
    | none => (said, c)

/-- Takes the words of a plain scalar, the last character first. -/
def takePlainWords (inFlow : Bool) (indent : Int) :
    (bound : Nat) → (said : List Char) → Gap → Cursor → Option (List Char × Cursor)
  | 0, _, _, _ => none
  | bound + 1, said, gap, c =>
    if c.isDocumentMark || c.sees 0 (· == '#') then some (said, c)
    else if inFlow && c.sees 0 (· == '-') && c.sees 1 isFlow then none
    else
      let (said, gap, c) :=
        if c.isPlain inFlow then
          let (said, c) := takePlainWord inFlow c.rest.length (gap.folded.reverse ++ said) c
          (said, {}, c)
        else (said, gap, c)
      if c.atEnd || !c.wordEnds 0 then some (said, c)
      else
        match gap.take true indent (c.rest.length + 1) c with
        | none => none
        | some (gap, c) =>
          if !inFlow && c.column < indent then some (said, c)
          else takePlainWords inFlow indent bound said gap c

/-- Reads a plain scalar. -/
def readPlain (inFlow : Bool) (indent : Int) (c : Cursor) : Option (String × Cursor) := do
  if inFlow && c.column < indent then none
  let (said, c) ← takePlainWords inFlow indent (c.rest.length + 1) [] {} c
  return (String.ofList said.reverse, c)

/-! ## Scalars in quotes -/

/-- The character of a simple escape. -/
def unescape? : Char → Option Char
  | '0' => some '\x00'
  | 'a' => some '\x07'
  | 'b' => some '\x08'
  | 't' | '\t' => some '\t'
  | 'n' => some '\n'
  | 'v' => some '\x0b'
  | 'f' => some '\x0c'
  | 'r' => some '\r'
  | 'e' => some '\x1b'
  | ' ' => some ' '
  | '"' => some '"'
  | '/' => some '/'
  | '\\' => some '\\'
  | 'N' => some '\u0085'
  | '_' => some '\u00a0'
  | 'L' => some '\u2028'
  | 'P' => some '\u2029'
  | _ => none

/-- How many hexadecimal digits follow the letter of an escape. -/
def escapeLength? : Char → Option Nat
  | 'x' => some 2
  | 'u' => some 4
  | 'U' => some 8
  | _ => none

/-- Reads the escape behind a backslash. -/
def readEscape (c : Cursor) : Option (Char × Cursor) := do
  let letter ← c.head?
  match escapeLength? letter with
  | none => return (← unescape? letter, c.advance 1)
  | some length =>
    let digits := (c.rest.drop 1).take length
    if digits.length < length then none
    let n ← digits.foldlM (fun n d => (Json.hexValue? d).map fun v => n * 16 + v) 0
    if h : n.isValidChar then some (Char.ofNatAux n h, c.advance (length + 1)) else none

/-- Takes the characters of a quoted scalar up to the next blank or its last quote, the last character
first. Tells whether they end with an escaped line end. -/
def takeQuotedWord (quote : Char) :
    (bound : Nat) → (said : List Char) → Cursor → Option (List Char × Bool × Cursor)
  | 0, _, _ => none
  | bound + 1, said, c =>
    match c.head? with
    | none => some (said, false, c)
    | some x =>
      if isBlank x || isBreak x then some (said, false, c)
      else if x == quote then
        if quote == '\u0027' && c.sees 1 (· == quote) then
          takeQuotedWord quote bound (quote :: said) (c.advance 2)
        else some (said, false, c)
      else if quote == '"' && x == '\\' then
        if c.sees 1 isBreak then some (said, true, (c.advance 1).nextLine)
        else match readEscape (c.advance 1) with
          | some (x, c) => takeQuotedWord quote bound (x :: said) c
          | none => none
      else takeQuotedWord quote bound (x :: said) (c.advance 1)

/-- Takes a quoted scalar from behind its first quote, the last character first. -/
def takeQuoted (quote : Char) (indent : Int) :
    (bound : Nat) → (said : List Char) → Cursor → Option (List Char × Cursor)
  | 0, _, _ => none
  | bound + 1, said, c => do
    if c.isDocumentMark || c.atEnd || c.column < indent then none
    let (said, joined, c) ← takeQuotedWord quote (c.rest.length + 1) said c
    if c.sees 0 (· == quote) then return (said, c.advance 1)
    let (gap, c) ← Gap.take false indent (c.rest.length + 1) { joined } c
    takeQuoted quote indent bound (gap.folded.reverse ++ said) c

/-- Reads a quoted scalar. Behind it there may be what ends an item between brackets, the colon of a key,
which is on the same line outside of brackets, and nothing else. -/
def readQuoted (quote : Char) (inFlow : Bool) (indent : Int) (c : Cursor) : Option (String × Cursor) := do
  let first := c
  let (said, c) ← takeQuoted quote indent (c.rest.length + 1) [] (c.advance 1)
  let (_, c) ← c.skipRest true
  let ends := c.atLineEnd ||
    (inFlow && c.sees 0 fun x => x == ',' || x == '\x7d' || x == ']' || x == ':') ||
    (c.sees 0 (· == ':') && first.line == c.line)
  if ends then some (String.ofList said.reverse, c) else none

/-! ## Blocks of lines -/

/-- What becomes of the line ends behind a block. -/
inductive Chomping where
  /-- One is kept. -/
  | clip
  | strip
  | keep
deriving DecidableEq, Repr

/-- The chomping that a sign stands for. -/
def Chomping.ofSign? : Char → Option Chomping
  | '+' => some .keep
  | '-' => some .strip
  | _ => none

/-- Reads the signs behind the mark of a block: its chomping, and how far it is indented, if that is said.
They come in either order. -/
def readBlockSigns (c : Cursor) : Option (Chomping × Nat × Cursor) :=
  let digit? (c : Cursor) : Option (Nat × Cursor) :=
    match c.head? with
    | some x =>
      if x == '0' then none
      else if x.isDigit then some (x.toNat - '0'.toNat, c.advance 1)
      else some (0, c)
    | none => some (0, c)
  match c.head?.bind Chomping.ofSign? with
  | some chomping => (digit? (c.advance 1)).map fun (further, c) => (chomping, further, c)
  | none => do
    let (further, c) ← digit? c
    match c.head?.bind Chomping.ofSign? with
    | some chomping => if further = 0 then return (.clip, 0, c) else return (chomping, further, c.advance 1)
    | none => return (.clip, further, c)

/-- Skips the empty lines before a block that does not say how far it is indented. Returns how many there
are, and the columns of the longest line of spaces, that of the first line included. -/
def skipFirstLines : (bound : Nat) → (longest breaks : Nat) → Cursor → Nat × Nat × Cursor
  | 0, longest, breaks, c => (longest, breaks, c)
  | bound + 1, longest, breaks, c =>
    let c := c.advanceBlanks (countWhile (· == ' ') c.rest)
    let longest := max longest c.column
    if c.sees 0 isBreak then skipFirstLines bound longest (breaks + 1) c.nextLine else (longest, breaks, c)

/-- Skips the indentation of a line of a block and the empty lines before it, which are counted. -/
def skipIndentation (indent : Nat) : (bound : Nat) → (breaks : Nat) → Cursor → Nat × Cursor
  | 0, breaks, c => (breaks, c)
  | bound + 1, breaks, c =>
    let c := c.advanceBlanks (min (indent - c.column) (countWhile (· == ' ') c.rest))
    if c.sees 0 isBreak then skipIndentation indent bound (breaks + 1) c.nextLine else (breaks, c)

/-- The lines of a block as far as they have been read. -/
structure BlockLines where
  said : List Char := []
  /-- Whether a line has ended since. -/
  ended : Bool := false
  /-- The empty lines since. -/
  breaks : Nat
  /-- Whether the last line began with a blank. -/
  further : Bool := false

namespace BlockLines

/-- The line ends that stand between the last line and one that may begin with a blank. -/
def between (b : BlockLines) (literal further : Bool) : List Char :=
  if !literal && b.ended && !b.further && !further then
    if b.breaks = 0 then [' '] else List.replicate b.breaks '\n'
  else (if b.ended then ['\n'] else []) ++ List.replicate b.breaks '\n'

/-- Reads the lines of a block. -/
def read (literal : Bool) (indent : Nat) : (bound : Nat) → BlockLines → Cursor → BlockLines × Cursor
  | 0, b, c => (b, c)
  | bound + 1, b, c =>
    if c.column ≠ indent || c.atEnd || (indent = 0 && c.isMark '.') then (b, c)
    else
      let further := c.sees 0 isBlank
      let said := b.said ++ b.between literal further ++ c.run fun x => !isBreak x
      let c := c.lineEnd
      if c.atEnd then ({ said, breaks := 0, further }, c)
      else
        let c := c.nextLine
        let (breaks, c) := skipIndentation indent (c.rest.length + 1) 0 c
        read literal indent bound { said, ended := true, breaks, further } c

/-- What a block says, given the place behind it. -/
def text (b : BlockLines) (chomping : Chomping) (indent : Nat) (c : Cursor) : List Char :=
  let last :=
    if chomping = .strip then []
    else (if b.ended then ['\n'] else []) ++ (if c.atEnd && max indent 1 ≤ c.column then ['\n'] else [])
  b.said ++ last ++ if chomping = .keep then List.replicate b.breaks '\n' else []

end BlockLines

/-- Reads a block of lines from its mark on; `outer` is the column of the block around. -/
def readBlock (literal : Bool) (outer : Int) (c : Cursor) : Option (String × Cursor) := do
  let first := c
  let (chomping, further, c) ← readBlockSigns (c.advance 1)
  let (_, c) ← c.skipRest true
  if !c.atLineEnd then none
  let ended := !c.atEnd
  let c := if ended then c.nextLine else c
  if c.sees 0 (· == '\t') then none
  let (indent, breaks, c) :=
    if 0 < further then
      let indent := (max outer 0).toNat + further
      let (breaks, c) := skipIndentation indent (c.rest.length + 1) 0 c
      (indent, breaks, c)
    else
      let (longest, breaks, c) := skipFirstLines (c.rest.length + 1) 0 0 c
      (max longest (outer + 1).toNat, breaks, c)
  if c.atEnd then
    let kept := match chomping with
      | .strip => 0
      | .clip => 1
      | .keep => max breaks 1
    let said := if c.line = first.line then [] else List.replicate kept '\n'
    return (String.ofList said, c)
  if c.column < indent && outer < c.column then none
  let (b, c) := BlockLines.read literal indent (c.rest.length + 1) { breaks } c
  return (String.ofList (b.text chomping indent c), c)

end Yaml

end TaskLease
