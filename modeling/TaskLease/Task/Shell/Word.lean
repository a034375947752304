import TaskLease.Text.Decimal

/-!
# The words of a script

A word of a script consists of parts: texts, in quotes or not, and what values are put in for. Between words
stand operators, which part commands from each other or send their output elsewhere. A document is a text in
the midst of a script: it begins on the line after the one that asks for it.

Reading is by recursion on a bound, for which the length of the script suffices.
-/

namespace TaskLease

namespace Shell

/-! ## Parts -/

/-- What is taken instead of the value of a variable, and when. -/
inductive Choice where
  /-- The value itself is taken. -/
  | value
  /-- The length of the value is taken. -/
  | length
  /-- A word is taken if there is no value. -/
  | otherwise
  /-- The same, and the word becomes the value. -/
  | assigned
  /-- A word is taken if there is a value. -/
  | instead
  /-- The script ends if there is no value. -/
  | required
  /-- The value is taken without the longest or shortest beginning or end of a form that a word gives. -/
  | without (atEnd longest : Bool)
deriving DecidableEq, Repr

/-- A part of a word. `quoted` tells whether blanks in it are like any other character. -/
inductive Part where
  | text (said : List Char) (quoted : Bool)
  /-- A variable, with what may be taken instead; `orEmpty` tells whether an empty value is none. -/
  | parameter (name : String) (choice : Choice) (orEmpty : Bool) (word : List Part) (quoted : Bool)
  /-- What a script prints. -/
  | output (script : List Char) (quoted : Bool)
  /-- The value of an arithmetic expression. -/
  | arithmetic (expression : List Part) (quoted : Bool)
deriving Inhabited

/-- A word. -/
abbrev Word := List Part

/-- The text of a word without quotes and values. -/
def literal? : Word → Option (List Char)
  | [] => some []
  | .text said false :: rest => (literal? rest).map (said ++ ·)
  | _ => none

/-! ## Operators -/

/-- What happens to a stream of a command. -/
inductive Direction where
  /-- It is read from a file. -/
  | source
  /-- It goes to a file, in the place of what is there. -/
  | replace
  /-- It goes to a file, behind what is there. -/
  | append
  /-- It goes where another stream goes. -/
  | follow
  /-- It is read from a text in the script itself. -/
  | document
deriving DecidableEq, Repr

/-- A mark between words. -/
inductive Operator where
  /-- The end of a command. -/
  | stop
  /-- The end of a line. -/
  | line
  /-- The end of a command that is not waited for. -/
  | background
  /-- The end of a case. -/
  | caseEnd
  | both
  | either
  | pipe
  | opening
  | closing
  /-- Sends a stream of a command, by its number, where the next word says. -/
  | redirect (stream : Nat) (direction : Direction)
deriving DecidableEq, Repr

/-- A word or an operator. -/
inductive Token where
  | word (word : Word)
  | operator (operator : Operator)

/-! ## Characters -/

/-- Whether a character may stand in the name of a variable. -/
def isNameCharacter (c : Char) : Bool := c.isAlphanum || c == '_'

/-- Whether a text is the name of a variable. -/
def isName (cs : List Char) : Bool :=
  cs.all isNameCharacter && (cs.head?).any fun c => !c.isDigit

/-- Whether a character ends a word. -/
def endsWord (c : Char) : Bool := " \t\n;&|<>()".toList.contains c

/-- The variables whose names are single marks. -/
def isSpecial (c : Char) : Bool := "#@*?$!-".toList.contains c || c.isDigit

/-! ## Enclosed scripts -/

/-- Takes a text up to the parenthesis that closes it; those in quotes do not count. -/
def takeEnclosed : (bound : Nat) → (depth : Nat) → (quote : Option Char) → (said : List Char) →
    List Char → Option (List Char × List Char)
  | 0, _, _, _, _ => none
  | _ + 1, _, _, _, [] => none
  | bound + 1, depth, quote, said, c :: rest =>
    match quote with
    | some q =>
      if c = '\\' ∧ q = '"' then
        match rest with
        | d :: rest => takeEnclosed bound depth quote (d :: c :: said) rest
        | [] => none
      else takeEnclosed bound depth (if c = q then none else quote) (c :: said) rest
    | none =>
      if c = '\\' then
        match rest with
        | d :: rest => takeEnclosed bound depth none (d :: c :: said) rest
        | [] => none
      else if c = '"' ∨ c = '\u0027' then takeEnclosed bound depth (some c) (c :: said) rest
      else if c = '(' then takeEnclosed bound (depth + 1) none (c :: said) rest
      else if c = ')' then
        match depth with
        | 0 => some (said.reverse, rest)
        | depth + 1 => takeEnclosed bound depth none (c :: said) rest
      else takeEnclosed bound depth none (c :: said) rest

/-- Takes a text up to a back quote. A backslash before one, a dollar sign or another backslash is
dropped. -/
def takeBackQuoted : (said : List Char) → List Char → Option (List Char × List Char)
  | said, '\\' :: c :: rest =>
    takeBackQuoted (if c = '\\' ∨ c = '$' ∨ c = '\x60' then said ++ [c] else said ++ ['\\', c]) rest
  | said, c :: rest => if c = '\x60' then some (said, rest) else takeBackQuoted (said ++ [c]) rest
  | _, [] => none

/-- The expression within two pairs of parentheses, given what is in the outer one. -/
def innerExpression? : List Char → Option (List Char)
  | '(' :: cs =>
    match takeEnclosed (cs.length + 1) 0 none [] cs with
    | some (inner, []) => some inner
    | _ => none
  | _ => none

/-! ## Words -/

/-- What a piece of a word lies in. -/
inductive Context where
  | bare
  | quotes
  /-- The word of a choice in braces; in quotes, if that is so. -/
  | braces (quoted : Bool)
  /-- An arithmetic expression. -/
  | expression
  /-- A document. -/
  | document
deriving DecidableEq, Repr

/-- Whether blanks are like any other character. -/
def Context.isQuoted : Context → Bool
  | .quotes | .expression | .document => true
  | .bare => false
  | .braces quoted => quoted

/-- Whether a character ends a piece. -/
def Context.endsAt (context : Context) (c : Char) : Bool :=
  match context with
  | .bare => endsWord c
  | .quotes => c == '"'
  | .braces _ => c == '\x7d'
  | .expression | .document => false

/-- Whether a piece may end with the text. -/
def Context.endsWithText : Context → Bool
  | .bare | .expression | .document => true
  | .quotes | .braces _ => false

/-- The choice that marks behind the name of a variable stand for, whether an empty value counts as none
there, and what follows. -/
def takeChoice : List Char → Option (Choice × Bool × List Char)
  | ':' :: '-' :: cs => some (.otherwise, true, cs)
  | ':' :: '=' :: cs => some (.assigned, true, cs)
  | ':' :: '+' :: cs => some (.instead, true, cs)
  | ':' :: '?' :: cs => some (.required, true, cs)
  | '-' :: cs => some (.otherwise, false, cs)
  | '=' :: cs => some (.assigned, false, cs)
  | '+' :: cs => some (.instead, false, cs)
  | '?' :: cs => some (.required, false, cs)
  | '%' :: '%' :: cs => some (.without true true, false, cs)
  | '%' :: cs => some (.without true false, false, cs)
  | '#' :: '#' :: cs => some (.without false true, false, cs)
  | '#' :: cs => some (.without false false, false, cs)
  | _ => none

/-- The name of a variable at the start of a text, and what follows it. -/
def takeVariable (cs : List Char) : Option (List Char × List Char) :=
  match cs with
  | [] => none
  | c :: rest =>
    if c.isDigit then some (cs.takeWhile Char.isDigit, cs.dropWhile Char.isDigit)
    else if isNameCharacter c then some (cs.takeWhile isNameCharacter, cs.dropWhile isNameCharacter)
    else if isSpecial c then some ([c], rest)
    else none

/-- Adds a text to a word. -/
def addText (word : Word) (said : List Char) (quoted : Bool) : Word :=
  match word.getLast? with
  | some (.text before q) =>
    if q = quoted then word.dropLast ++ [.text (before ++ said) q] else word ++ [.text said quoted]
  | _ => word ++ [.text said quoted]

/-- Reads what is in the braces behind a dollar sign; `word` reads the word of a choice, in quotes or
not. -/
def readBraces (word : (quoted : Bool) → List Char → Option (Word × List Char)) (quoted : Bool)
    (cs : List Char) : Option (Part × List Char) := do
  let (size, cs) := match cs with
    | '#' :: c :: rest => if c = '\x7d' then (false, cs) else (true, c :: rest)
    | cs => (false, cs)
  let (name, rest) ← takeVariable cs
  let name := String.ofList name
  match rest with
  | [] => none
  | c :: after =>
    if c = '\x7d' then
      return (.parameter name (if size then .length else .value) false [] quoted, after)
    else if size then none
    else
      let (choice, orEmpty, after) ← takeChoice rest
      let isForm := choice matches .without ..
      let (word, rest) ← word (quoted && !isForm) after
      match rest with
      | '\x7d' :: rest => return (.parameter name choice orEmpty word quoted, rest)
      | _ => none

/-- Reads the piece of a word that lies in a context, up to the character that ends it. -/
def readPiece : (bound : Nat) → Context → Word → List Char → Option (Word × List Char)
  | 0, _, _, _ => none
  | _ + 1, context, word, [] => if context.endsWithText then some (word, []) else none
  | bound + 1, context, word, c :: rest =>
    let quoted := context.isQuoted
    if context.endsAt c then some (word, c :: rest)
    else if c = '$' then
      match rest with
      | '(' :: cs => do
        let (inner, after) ← takeEnclosed (cs.length + 1) 0 none [] cs
        match innerExpression? inner with
        | some expression =>
          let (parts, _) ← readPiece bound .expression [] expression
          readPiece bound context (word ++ [.arithmetic parts quoted]) after
        | none => readPiece bound context (word ++ [.output inner quoted]) after
      | '\x7b' :: cs => do
        let (part, after) ← readBraces (fun quoted => readPiece bound (.braces quoted) []) quoted cs
        readPiece bound context (word ++ [part]) after
      | rest =>
        match takeVariable rest with
        | some (name, after) =>
          let (name, after) :=
            if (name.head?).any Char.isDigit then (rest.take 1, rest.drop 1) else (name, after)
          readPiece bound context (word ++ [.parameter (String.ofList name) .value false [] quoted]) after
        | none => readPiece bound context (addText word ['$'] quoted) rest
    else if c = '\x60' then do
      let (inner, after) ← takeBackQuoted [] rest
      readPiece bound context (word ++ [.output inner quoted]) after
    else if quoted then
      match c, rest with
      | '\\', d :: after =>
        if d = '\n' then readPiece bound context word after
        else if d = '$' ∨ d = '\x60' ∨ d = '\\' ∨ d = '"' ∧ context ≠ .document then
          readPiece bound context (addText word [d] true) after
        else readPiece bound context (addText word [c, d] true) after
      | c, rest =>
        let hidden := c = '"' ∧ context = .braces true
        readPiece bound context (if hidden then word else addText word [c] true) rest
    else
      match c, rest with
      | '\\', d :: after =>
        readPiece bound context (if d = '\n' then word else addText word [d] true) after
      | '\u0027', rest =>
        let said := rest.takeWhile (· ≠ '\u0027')
        match rest.drop said.length with
        | _ :: after => readPiece bound context (addText word said true) after
        | [] => none
      | '"', rest => do
        let (inner, after) ← readPiece bound .quotes [] rest
        readPiece bound context (word ++ if inner.isEmpty then [.text [] true] else inner) (after.drop 1)
      | c, rest => readPiece bound context (addText word [c] false) rest

/-! ## Tokens -/

/-- Reads an operator. Only the numbers of streams make a difference to what is before it. -/
def readOperator (stream : Option Nat) : List Char → Option (Operator × List Char)
  | '<' :: '<' :: cs => some (.redirect (stream.getD 0) .document, cs)
  | '>' :: '>' :: cs => some (.redirect (stream.getD 1) .append, cs)
  | '>' :: '&' :: cs => some (.redirect (stream.getD 1) .follow, cs)
  | '>' :: '|' :: cs => some (.redirect (stream.getD 1) .replace, cs)
  | '>' :: cs => some (.redirect (stream.getD 1) .replace, cs)
  | '<' :: '&' :: cs => some (.redirect (stream.getD 0) .follow, cs)
  | '<' :: cs => some (.redirect (stream.getD 0) .source, cs)
  | '&' :: '&' :: cs => some (.both, cs)
  | '|' :: '|' :: cs => some (.either, cs)
  | '|' :: cs => some (.pipe, cs)
  | '(' :: cs => some (.opening, cs)
  | ')' :: cs => some (.closing, cs)
  | ';' :: ';' :: cs => some (.caseEnd, cs)
  | ';' :: cs => some (.stop, cs)
  | '&' :: cs => some (.background, cs)
  | '\n' :: cs => some (.line, cs)
  | _ => none

/-- The number of a stream, if a text is one digit right before a redirection. -/
def streamOf? (word : Word) (rest : List Char) : Option Nat :=
  match literal? word, rest with
  | some [c], '>' :: _ | some [c], '<' :: _ => if c.isDigit then some (c.toNat - '0'.toNat) else none
  | _, _ => none

/-! ## Documents -/

/-- The text of a word without its quotes, if no values are put in, and whether it has quotes. -/
def unquoted? : Word → Option (List Char × Bool)
  | [] => some ([], false)
  | .text said quoted :: rest => (unquoted? rest).map fun (more, q) => (said ++ more, quoted || q)
  | _ => none

/-- Takes a document from behind its mark. The word there is the line that ends the document; if it has no
quotes, values are put in. Leaves the text without the document. -/
def takeDocument (bound : Nat) (cs : List Char) : Option (Word × List Char) := do
  let (indented, cs) := match cs with
    | '-' :: cs => (true, cs)
    | cs => (false, cs)
  let (word, rest) ← readPiece bound .bare [] (cs.dropWhile fun c => c = ' ' || c = '\t')
  let (ending, quoted) ← unquoted? word
  if ending.isEmpty && !quoted then none
  let here := rest.takeWhile (· ≠ '\n')
  let lines := (rest.drop (here.length + 1)).splitOn '\n'
  let lines := if lines.getLast? = some [] then lines.dropLast else lines
  let isEnding (line : List Char) : Bool :=
    (if indented then line.dropWhile (· = '\t') else line) == ending
  let inside := lines.takeWhile fun line => !isEnding line
  let inside := if indented then inside.map (·.dropWhile (· = '\t')) else inside
  let said := inside.flatMap (· ++ ['\n'])
  let after := (lines.drop (inside.length + 1)).flatMap ('\n' :: ·)
  if quoted then some ([.text said true], here ++ after)
  else
    let (parts, _) ← readPiece bound .document [] said
    some (parts, here ++ after)

/-- The tokens of a script. -/
def tokens? : (bound : Nat) → List Char → Option (List Token)
  | 0, _ => none
  | _ + 1, [] => some []
  | bound + 1, c :: rest =>
    let readBehind (operator : Operator) (rest : List Char) : Option (List Token) := do
      match operator with
      | .redirect _ .document =>
        let (document, rest) ← takeDocument (2 * rest.length + 2) rest
        (tokens? bound rest).map ([.operator operator, .word document] ++ ·)
      | operator => (tokens? bound rest).map (.operator operator :: ·)
    if c = ' ' ∨ c = '\t' then tokens? bound rest
    else if c = '\\' ∧ rest.head? = some '\n' then tokens? bound (rest.drop 1)
    else if c = '#' then tokens? bound (rest.dropWhile (· ≠ '\n'))
    else
      match readOperator none (c :: rest) with
      | some (operator, rest) => readBehind operator rest
      | none => do
        let (word, rest) ← readPiece (rest.length + 2) .bare [] (c :: rest)
        match streamOf? word rest with
        | some stream =>
          let (operator, rest) ← readOperator (some stream) rest
          readBehind operator rest
        | none => (tokens? bound rest).map (.word word :: ·)

end Shell

end TaskLease
