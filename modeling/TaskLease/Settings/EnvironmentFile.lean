import TaskLease.Settings.Environment
import TaskLease.Text.Alphanumeric
import TaskLease.Text.Blank

/-!
# Environment files

A file of variables has one on each line, perhaps after the word `export`. A value may be quoted, and
quotes may reach over several lines; outside of single quotes a dollar sign stands before the name of a
variable whose value is put in, which consists of letters and numbers. A comment begins with a hash at the
start of a line or after a blank.

Reading ends at the first line that is none of this. Variables that are set already keep their values.
-/

namespace TaskLease

namespace Environment

namespace File

/-! ## Lines -/

/-- What a place in a line lies in. -/
inductive Place where
  | plain
  | escape
  | single
  | singleEscape
  | double
  | doubleEscape
  | blank
deriving DecidableEq, Repr

/-- The place after one more character; nowhere, if a comment begins with it. -/
def Place.next : Place → Char → Option Place
  | .blank, c =>
    if c = '#' then none
    else if c = '\\' then some .escape
    else if c = '"' then some .double
    else if c = '\u0027' then some .single
    else some .plain
  | .escape, _ => some .plain
  | .plain, c =>
    if Text.isBlank c && c ≠ '\n' && c ≠ '\r' then some .blank
    else if c = '\\' then some .escape
    else if c = '"' then some .double
    else if c = '\u0027' then some .single
    else some .plain
  | .double, c =>
    if c = '\\' then some .doubleEscape else if c = '"' then some .plain else some .double
  | .doubleEscape, _ => some .double
  | .single, c =>
    if c = '\\' then some .singleEscape else if c = '\u0027' then some .plain else some .single
  | .singleEscape, _ => some .single

/-- The text before a comment that begins in it, or the place at its end. -/
def scan (place : Place) : (before : List Char) → List Char → Except (List Char) Place
  | _, [] => .ok place
  | before, c :: cs =>
    match place.next c with
    | none => .error before
    | some place => scan place (before ++ [c]) cs

/-- The physical lines of a text, each with its end. -/
def physicalLines : List Char → List (List Char)
  | [] => []
  | c :: cs =>
    if c = '\n' then ['\n'] :: physicalLines cs
    else match physicalLines cs with
      | [] => [[c]]
      | line :: rest => (c :: line) :: rest

/-- A line without its end. -/
def dropEnd (line : List Char) : List Char :=
  match line.reverse with
  | '\n' :: '\r' :: rest => rest.reverse
  | '\n' :: rest => rest.reverse
  | _ => line

/-- Whether a line holds nothing but a comment. -/
def isComment (line : List Char) : Bool := (Text.skipBlanks line).head? = some '#'

/-- The lines of a text, where a quoted value may reach over several. The last one is missing if it does
not come to an end. -/
def lines (place : Place) (open_ : List Char) : List (List Char) → List (Option (List Char))
  | [] => if place = .plain then [] else [none]
  | line :: rest =>
    if isComment (open_ ++ line) then some [] :: lines .plain [] rest
    else match scan place [] line with
      | .error before => some (open_ ++ before) :: lines .plain [] rest
      | .ok .plain => some (dropEnd (open_ ++ line)) :: lines .plain [] rest
      | .ok place => lines place (open_ ++ line) rest

/-! ## Values -/

/-- How a name that follows a dollar sign is written. -/
inductive Naming where
  | bare
  | braced
deriving DecidableEq, Repr

/-- What a value is read as, at a place in it. -/
inductive Mode where
  | plain
  | single
  | double
  /-- After a backslash; inside double quotes, if that is so. -/
  | escape (quoted : Bool)
  /-- After a dollar sign, with the name so far. -/
  | naming (how : Naming) (name : List Char) (quoted : Bool)
  /-- After a blank, where only blanks and a comment may follow. -/
  | ending
deriving DecidableEq, Repr

/-- The mode of a text that is not escaped. -/
def Mode.text (quoted : Bool) : Mode := if quoted then .double else .plain

/-- Reads a value. `known` gives the values of names. -/
def readValue (known : String → String) : Mode → (said : List Char) → List Char → Option (List Char)
  | mode, said, [] =>
    match mode with
    | .plain | .ending | .escape false => some said
    | .naming .bare name false => some (said ++ (known (String.ofList name)).toList)
    | _ => none
  | .ending, said, c :: cs =>
    if c = ' ' ∨ c = '\t' then readValue known .ending said cs
    else if c = '#' then some said
    else none
  | .escape quoted, said, c :: cs =>
    if c = '\\' ∨ c = '\u0027' ∨ c = '"' ∨ c = '$' ∨ c = ' ' then
      readValue known (.text quoted) (said ++ [c]) cs
    else if c = 'n' then readValue known (.text quoted) (said ++ ['\n']) cs
    else none
  | .single, said, c :: cs =>
    if c = '\u0027' then readValue known .plain said cs else readValue known .single (said ++ [c]) cs
  | .naming how name quoted, said, c :: cs =>
    let value := (known (String.ofList name)).toList
    if Text.isAlphanumeric c then readValue known (.naming how (name ++ [c]) quoted) said cs
    else match how with
      | .bare =>
        if c = '\x7b' ∧ name = [] then readValue known (.naming .braced [] quoted) said cs
        else if c = '$' then readValue known (.naming .bare [] quoted) (said ++ value) cs
        else readValue known (.text quoted) (said ++ value ++ [c]) cs
      | .braced =>
        if c = '\x7d' then readValue known (.text quoted) (said ++ value) cs
        else readValue known (.naming .braced (name ++ [c]) quoted) said cs
  | .double, said, c :: cs =>
    if c = '$' then readValue known (.naming .bare [] true) said cs
    else if c = '"' then readValue known .plain said cs
    else if c = '\\' then readValue known (.escape true) said cs
    else readValue known .double (said ++ [c]) cs
  | .plain, said, c :: cs =>
    if c = '$' then readValue known (.naming .bare [] false) said cs
    else if c = '\u0027' then readValue known .single said cs
    else if c = '"' then readValue known .double said cs
    else if c = '\\' then readValue known (.escape false) said cs
    else if c = ' ' ∨ c = '\t' then readValue known .ending said cs
    else readValue known .plain (said ++ [c]) cs

/-! ## Assignments -/

/-- The name at the start of a line, and what follows it. -/
def takeName (cs : List Char) : Option (String × List Char) :=
  let isPart (c : Char) : Bool := c.isAlphanum || c == '_' || c == '.'
  match cs with
  | [] => none
  | c :: _ =>
    if c.isAlpha || c == '_' then
      some (String.ofList (cs.takeWhile isPart), Text.skipBlanks (cs.dropWhile isPart))
    else none

/-- The value behind an equals sign. -/
def takeValue (known : String → String) : List Char → Option String
  | '=' :: cs =>
    let cs := Text.skipBlanks cs
    if cs.isEmpty || cs.head? = some '#' then some ""
    else (readValue known .plain [] cs).map String.ofList
  | _ => none

/-- What a line says: nothing, or the value of a variable. A line that is neither is no line of such a
file. Blanks at its ends say nothing. -/
def readLine (known : String → String) (line : List Char) : Option (Option (String × String)) := do
  let cs := Text.trim line
  if cs.isEmpty || cs.head? = some '#' then return none
  let (name, rest) ← takeName cs
  if name = "export" && rest.head? ≠ some '=' then
    let (name, rest) ← takeName rest
    return some (name, ← takeValue known rest)
  else return some (name, ← takeValue known rest)

/-- Sets the variables of some lines. `read` holds what the lines so far have said. -/
def apply (bindings : Bindings) (read : Bindings) : List (Option (List Char)) → Bindings
  | [] => bindings
  | none :: _ => bindings
  | some line :: rest =>
    let known (name : String) : String :=
      ((bindings.get? name).or (read.get? name)).getD ""
    match readLine known line with
    | none => bindings
    | some none => apply bindings read rest
    | some (some (name, value)) =>
      let read := read.insert name value
      if bindings.contains name then apply bindings read rest
      else apply (bindings.insert name value) read rest

/-- The text without the mark that some editors put at its start. -/
def dropMark : List Char → List Char
  | '\uFEFF' :: cs => cs
  | cs => cs

end File

/-- The variables after those of an environment file have been set. -/
def addFile (bindings : Bindings) (content : String) : Bindings :=
  File.apply bindings ∅ (File.lines .plain [] (File.physicalLines (File.dropMark content.toList)))

end Environment

end TaskLease
