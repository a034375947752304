import TaskLease.Settings.Yaml.Cursor
import TaskLease.Settings.Yaml.Scalar
import TaskLease.Settings.Yaml.Tag
import TaskLease.Settings.Yaml.Token

/-!
# From the text of a YAML document to its tokens

Indentation is kept as a stack of the blocks that are open. Whether a scalar is a key is known only when
its colon is seen, so the place of what may become a key is kept until then, one for every pair of
brackets, and the tokens that announce the key are put before it afterwards. A key lies on one line and has
at most 1024 characters, except in brackets.

Everything here is a function from one state of the lexer to the next, or to nothing where the text is no
document; `tokens` takes one token after the other, at most as many as the text has characters.
-/

namespace TaskLease

namespace Yaml

/-- The place of something that may become a key. -/
structure PossibleKey where
  /-- Whether it has to become one, because nothing else may stand there. -/
  required : Bool
  /-- The number of the entry that it begins. -/
  entry : Nat
  index : Nat
  line : Nat
  column : Nat

/-- An open block. -/
structure OpenBlock where
  /-- The column of the block around it. -/
  outer : Int
  /-- Whether its beginning is a token. Otherwise it only stands for the column behind a key or dash. -/
  announced : Bool

/-- A lexer in the midst of a text. -/
structure Lexer where
  cursor : Cursor
  /-- The tokens so far. An entry holds a token and those that have been put before it. -/
  entries : Array (List Token) := #[]
  /-- Whether the last token is an anchor or a tag at the beginning of a line. -/
  marginal : Bool := false
  /-- Whether a key may begin here. -/
  keyAllowed : Bool := true
  /-- What may become a key between the innermost brackets. -/
  key : Option PossibleKey := none
  /-- What may become a key outside of these, from the inside out; one for every open bracket. -/
  outerKeys : List (Option PossibleKey) := []
  /-- The column of the innermost block. -/
  indent : Int := -1
  blocks : List OpenBlock := []
  /-- The place where a colon may follow without a blank behind it. -/
  adjacent : Nat := 0
  /-- Whether a mapping has been begun by a mark of its own. -/
  mappingStarted : Bool := false
  /-- For every open square bracket, whether a mapping without brackets is open in it. -/
  sequences : List Bool := []

namespace Lexer

/-- How many brackets may be open at once. -/
def maxBrackets : Nat := 255

/-- How far the colon of a key may be from its beginning. -/
def maxKeyLength : Nat := 1024

/-- Whether brackets are open. -/
def inFlow (l : Lexer) : Bool := !l.outerKeys.isEmpty

/-- Adds a token. -/
def emit (l : Lexer) (token : Token) : Lexer :=
  { l with entries := l.entries.push [token], marginal := false }

/-- Whether the innermost block has been announced by a token. -/
def innermostAnnounced (l : Lexer) : Bool := (l.blocks.head?).any (·.announced)

/-! ## Blocks -/

/-- Opens a block at a column, if that is further in than the innermost one; `announce` adds the token
for its beginning. -/
def openBlock (l : Lexer) (column : Nat) (announce : Lexer → Lexer) : Lexer :=
  if l.inFlow then l
  else
    let l : Lexer := match l.blocks with
      | block :: rest =>
        if l.indent ≤ (column : Int) && !block.announced then
          { l with indent := block.outer, blocks := rest }
        else l
      | [] => l
    if l.indent < (column : Int) then
      announce { l with indent := column, blocks := ⟨l.indent, true⟩ :: l.blocks }
    else l

/-- Asks for one column more within the innermost block. -/
def indentFurther (l : Lexer) : Lexer :=
  if !l.inFlow && l.innermostAnnounced then
    { l with indent := l.indent + 1, blocks := ⟨l.indent, false⟩ :: l.blocks }
  else l

/-- Closes blocks as long as they lie further in than a column. -/
def closeBlocksFrom (column : Int) : List OpenBlock → Lexer → Lexer
  | [], l => { l with blocks := [] }
  | block :: rest, l =>
    if column < l.indent then
      let l := { l with indent := block.outer }
      closeBlocksFrom column rest (if block.announced then l.emit .blockEnd else l)
    else { l with blocks := block :: rest }

/-- Closes the blocks that lie further in than a column. Brackets keep all blocks open. -/
def closeBlocks (l : Lexer) (column : Int) : Lexer :=
  if l.inFlow then l else closeBlocksFrom column l.blocks l

/-- Forgets the innermost blocks that have not been announced. -/
def dropUnannounced (l : Lexer) : Lexer :=
  let rec drop : List OpenBlock → Int → List OpenBlock × Int
    | [], indent => ([], indent)
    | block :: rest, indent => if block.announced then (block :: rest, indent) else drop rest block.outer
  let (blocks, indent) := drop l.blocks l.indent
  { l with blocks, indent }

/-! ## Keys -/

/-- Takes the place for one that may become a key, if one may begin here. -/
def saveKey (l : Lexer) : Lexer :=
  if !l.keyAllowed then l
  else
    let c := l.cursor
    { l with key := some {
        required := !l.inFlow && l.indent == c.column && l.innermostAnnounced
        entry := l.entries.size
        index := c.index
        line := c.line
        column := c.column } }

/-- Gives up what might have become a key, unless it has to. -/
def dropKey (l : Lexer) : Option Lexer :=
  if l.key.any (·.required) then none else some { l with key := none }

/-- Gives up what can no longer become a key. -/
def dropStaleKey (l : Lexer) : Option Lexer :=
  let stale := l.key.any fun key =>
    key.line < l.cursor.line || key.index + maxKeyLength < l.cursor.index
  if !l.inFlow && stale then l.dropKey else some l

/-- Puts tokens before an entry. -/
def announceAt (l : Lexer) (entry : Nat) (tokens : List Token) : Lexer :=
  { l with entries := l.entries.modify entry (tokens ++ ·) }

/-! ## Between tokens -/

/-- Skips blanks, line ends and comments. Tabs do not indent a block. -/
def skipToToken : (bound : Nat) → Lexer → Option Lexer
  | 0, _ => none
  | bound + 1, l =>
    let c := l.cursor
    match c.head? with
    | none => some l
    | some x =>
      if x == '\t' && !l.blocks.isEmpty && c.fresh && c.column < l.indent then
        match c.skipRest true with
        | some (_, c) => if c.atLineEnd then skipToToken bound { l with cursor := c } else none
        | none => none
      else if isBlank x then skipToToken bound { l with cursor := c.advanceBlanks 1 }
      else if isBreak x then
        skipToToken bound { l with cursor := c.nextLine, keyAllowed := l.keyAllowed || !l.inFlow }
      else if x == '#' then skipToToken bound { l with cursor := c.lineEnd }
      else some l

/-- Skips blanks, line ends and comments up to the next token. -/
def toToken (l : Lexer) : Option Lexer := skipToToken (2 * l.cursor.rest.length + 1) l

/-- Skips the blanks that stand here and the comment after them. -/
def skipRest (l : Lexer) : Option Lexer := do
  let (_, c) ← l.cursor.skipRest true
  return { l with cursor := c }

/-- Skips spaces, line ends and comments. Tells whether there was a space or a line end. -/
def skipToContent : (bound : Nat) → (parted : Bool) → Lexer → Bool × Lexer
  | 0, parted, l => (parted, l)
  | bound + 1, parted, l =>
    let c := l.cursor
    match c.head? with
    | some ' ' => skipToContent bound true { l with cursor := c.advanceBlanks 1 }
    | some '#' => skipToContent bound parted { l with cursor := c.lineEnd }
    | some x =>
      if isBreak x then
        skipToContent bound true { l with cursor := c.nextLine, keyAllowed := l.keyAllowed || !l.inFlow }
      else (parted, l)
    | none => (parted, l)

/-! ## Brackets -/

/-- Closes the mapping without brackets that is open in the innermost square brackets. -/
def closeImplicit (l : Lexer) : Lexer :=
  match l.sequences with
  | true :: rest => { l with sequences := false :: rest, mappingStarted := false }.emit .flowMappingEnd
  | _ => l

/-- Takes an opening bracket. -/
def openBracket (l : Lexer) (square : Bool) : Option Lexer := do
  let l := l.saveKey.indentFurther
  if maxBrackets ≤ l.outerKeys.length then none
  let l := { l with
    outerKeys := l.key :: l.outerKeys
    key := none
    keyAllowed := true
    cursor := l.cursor.advance 1
    mappingStarted := l.mappingStarted || !square
    sequences := if square then false :: l.sequences else l.sequences }
  return (← l.skipRest).emit (if square then .flowSequenceStart else .flowMappingStart)

/-- Takes a closing bracket. -/
def closeBracket (l : Lexer) (square : Bool) : Option Lexer := do
  let l ← l.dropKey
  let l := match l.outerKeys with
    | key :: rest => { l with key, outerKeys := rest }
    | [] => l
  let l := { l with keyAllowed := false }
  let l := if square then { l.closeImplicit with sequences := l.sequences.drop 1 } else l
  let l ← { l with cursor := l.cursor.advance 1 }.skipRest
  let l := if l.inFlow then { l with adjacent := l.cursor.index } else l
  return l.emit (if square then .flowSequenceEnd else .flowMappingEnd)

/-- Takes a comma. -/
def takeComma (l : Lexer) : Option Lexer := do
  let l := { ← l.dropKey with keyAllowed := true }.closeImplicit
  return (← { l with cursor := l.cursor.advance 1 }.skipRest).emit .flowEntry

/-! ## Marks of blocks and keys -/

/-- Takes the dash of an item. No tab may part it from a dash after it. -/
def takeDash (l : Lexer) : Option Lexer := do
  let column := l.cursor.column
  if l.inFlow || !l.keyAllowed || (l.marginal && column = 0 && 0 ≤ l.indent) then none
  let l := { l with cursor := l.cursor.advance 1 }.openBlock column (·.emit .sequenceStart)
  let (blanks, c) ← l.cursor.skipRest true
  if blanks.contains '\t' && c.sees 0 (· == '-') && c.wordEnds 1 then none
  let l := { l with cursor := c }
  let l := if c.sees 0 fun x => isBreak x || isFlow x then l.indentFurther else l
  return { ← l.dropKey with keyAllowed := true }.emit .blockEntry

/-- Takes the question mark before a key. -/
def takeQuestion (l : Lexer) : Option Lexer := do
  if !l.inFlow && !l.keyAllowed then none
  let l :=
    if l.inFlow then { l with mappingStarted := true }
    else l.openBlock l.cursor.column (·.emit .mappingStart)
  let l ← l.dropKey
  let l := { l with keyAllowed := !l.inFlow, cursor := l.cursor.advance 1 }
  let (parted, l) := skipToContent (2 * l.cursor.rest.length + 1) false l
  if !parted || l.cursor.sees 0 (· == '\t') then none
  return l.emit .key

/-- Makes what stands before a colon a key. -/
def announceKey (l : Lexer) (key : PossibleKey) (implicit : Bool) (line : Nat) : Option Lexer := do
  if implicit && key.line < line then none
  let l := l.announceAt key.entry (if implicit then [.flowMappingStart, .key] else [.key])
  let l := (l.openBlock key.column (·.announceAt key.entry [.mappingStart])).indentFurther
  return { l with key := none, keyAllowed := false }

/-- Takes a colon behind something that is no key on one line. -/
def announceValue (l : Lexer) (column : Nat) (implicit : Bool) : Option Lexer := do
  let l := if implicit then l.emit .flowMappingStart else l
  if !l.inFlow && !l.keyAllowed then none
  let l := (l.openBlock column (·.emit .mappingStart)).indentFurther
  return { l with keyAllowed := !l.inFlow }

/-- Takes the colon before a value. Only a tab may not part it from a word or a dash. -/
def takeColon (l : Lexer) : Option Lexer := do
  let first := l.cursor
  let implicit := !l.sequences.isEmpty && !l.mappingStarted
  let l := if implicit then { l with sequences := true :: l.sequences.drop 1 } else l
  let c := first.advance 1
  let c ←
    if c.sees 0 (· == '\t') then do
      let (blanks, c) ← c.skipRest true
      if !blanks.contains ' ' && c.sees 0 isWord then none else some c
    else some c
  let l := { l with cursor := c }
  let l ← match l.key with
    | some key => l.announceKey key implicit first.line
    | none => l.announceValue first.column implicit
  return l.emit .value

/-! ## Nodes -/

/-- Takes an anchor or a tag. -/
def takeProperty (l : Lexer) (property : Cursor → Option (Token × Cursor)) : Option Lexer := do
  let column := l.cursor.column
  let l := { l.saveKey with keyAllowed := false }
  let (token, c) ← property l.cursor
  return { l.emit token with cursor := c, marginal := column = 0 }

/-- Takes the name of an anchor, or a name that stands for its node. -/
def takeName (l : Lexer) (token : String → Token) : Option Lexer := do
  let l := { l.saveKey with keyAllowed := false }
  let (name, c) ← readName l.cursor
  return { l.emit (token name) with cursor := c }

/-- Takes a plain scalar. -/
def takePlain (l : Lexer) : Option Lexer := do
  let l := { l.saveKey with keyAllowed := false }.dropUnannounced
  let (said, c) ← readPlain l.inFlow (l.indent + 1) l.cursor
  return { l.emit (.scalar true said) with cursor := c, keyAllowed := c.fresh }

/-- Takes a scalar in quotes. -/
def takeQuoted (l : Lexer) (quote : Char) : Option Lexer := do
  let l := { l.saveKey with keyAllowed := false }
  let (said, c) ← readQuoted quote l.inFlow l.indent l.cursor
  let l ← { l with cursor := c }.toToken
  return { l with adjacent := l.cursor.index }.emit (.scalar false said)

/-- Takes a block of lines. -/
def takeBlock (l : Lexer) (literal : Bool) : Option Lexer := do
  let l := { l.saveKey with keyAllowed := true }.dropUnannounced
  let (said, c) ← readBlock literal l.indent l.cursor
  return { l with cursor := c }.emit (.scalar false said)

/-! ## Documents -/

/-- Takes what stands for itself at the beginning of a line, and closes all blocks before. -/
def takeMargin (l : Lexer) (read : Cursor → Option (Token × Cursor)) : Option Lexer := do
  let l := { ← (l.closeBlocks (-1)).dropKey with keyAllowed := false }
  let (token, c) ← read l.cursor
  return { l with cursor := c }.emit token

/-- Takes a mark that ends a document. Nothing else may stand on its line. -/
def takeDocumentEnd (l : Lexer) : Option Lexer := do
  let l ← l.takeMargin fun c => some (.documentEnd, c.advance 3)
  let l ← l.skipRest
  if l.cursor.atLineEnd then some l else none

/-- Ends the text. -/
def finish (l : Lexer) : Option Lexer :=
  if (l.key :: l.outerKeys).any fun key => key.any (·.required) then none
  else some (l.closeBlocks (-1))

/-! ## One token after the other -/

/-- Takes the token that stands here. -/
def takeToken (l : Lexer) : Option Lexer := do
  let c := l.cursor
  let atMargin := c.column == 0
  if atMargin && c.sees 0 (· == '%') then l.takeMargin readDirective
  else if c.isMark '-' then l.takeMargin fun c => some (.documentStart, c.advance 3)
  else if c.isMark '.' then l.takeDocumentEnd
  else if c.column < l.indent then none
  else
    let ends := c.wordEnds 1
    match c.head? with
    | some '[' => l.openBracket true
    | some '{' => l.openBracket false
    | some ']' => l.closeBracket true
    | some '}' => l.closeBracket false
    | some ',' => l.takeComma
    | some '-' => if ends then l.takeDash else l.takePlain
    | some '?' => if ends then l.takeQuestion else l.takePlain
    | some ':' =>
      if ends then l.takeColon
      else if l.inFlow && (c.sees 1 isFlow || c.index == l.adjacent) then
        if c.index != l.adjacent && c.sees 1 fun x => x == '[' || x == '{' then none else l.takeColon
      else l.takePlain
    | some '*' => l.takeName .alias
    | some '&' => l.takeProperty fun c => (readName c).map fun (name, c) => (.anchor name, c)
    | some '!' => l.takeProperty fun c => (readTag l.inFlow c).map fun (tag, c) => (.tag tag, c)
    | some '|' => if l.inFlow then l.takePlain else l.takeBlock true
    | some '>' => if l.inFlow then l.takePlain else l.takeBlock false
    | some '\u0027' => l.takeQuoted '\u0027'
    | some '"' => l.takeQuoted '"'
    | some '%' | some '@' | some '\x60' => none
    | _ => l.takePlain

/-- Takes tokens up to the end of the text. -/
def run : (bound : Nat) → Lexer → Option Lexer
  | 0, _ => none
  | bound + 1, l => do
    let l ← (← l.toToken).dropStaleKey
    let l := l.closeBlocks l.cursor.column
    if l.cursor.atEnd then l.finish else run bound (← l.takeToken)

end Lexer

/-- The tokens of a text. -/
def tokens (text : List Char) : Option (List Token) :=
  (Lexer.run (text.length + 1) { cursor := { rest := text } }).map fun l => l.entries.toList.flatten

end Yaml

end TaskLease
