import TaskLease.Task.Pattern
import TaskLease.Task.Program

/-!
# What words are taken for

Once values have been put into a word, it consists of pieces, which make one field, several, or none: values
outside of quotes are divided at separators. A field that is a pattern then stands for the names of the
files that it describes, as long as there are any.
-/

namespace TaskLease

namespace Shell

open Pattern (Marked)

/-- A piece of what words are taken for. -/
inductive Piece where
  /-- A text that means itself. -/
  | fixed (said : List Char)
  /-- A text that may be part of a pattern. -/
  | plain (said : List Char)
  /-- A text that may be part of a pattern, and is divided. -/
  | loose (said : List Char)
  /-- The end of a field. -/
  | boundary
deriving DecidableEq, Repr

namespace Piece

/-- The piece that a value makes. -/
def value (quoted : Bool) (said : List Char) : Piece := if quoted then .fixed said else .loose said

/-- The piece that a text of the script itself makes. -/
def text (quoted : Bool) (said : List Char) : Piece := if quoted then .fixed said else .plain said

/-- The same piece in the place of a value. -/
def asValue : Piece → Piece
  | .plain said => .loose said
  | piece => piece

/-- The characters of a piece as a part of a pattern. -/
def marked : Piece → List Marked
  | .fixed said => said.map (·, false)
  | .plain said | .loose said => said.map (·, true)
  | .boundary => [(' ', false)]

end Piece

/-- Pieces as one pattern. -/
def patternOf (pieces : List Piece) : List Marked := pieces.flatMap Piece.marked

/-- The text of some pieces as one word. -/
def flatten (pieces : List Piece) : List Char := Pattern.plain (patternOf pieces)

/-! ## Dividing -/

/-- The separators of fields if a script does not say others. -/
def usualSeparators : List Char := [' ', '\t', '\n']

/-- Fields as far as they have been read. -/
structure Division where
  fields : List (List Marked) := []
  /-- The field under way. -/
  current : Option (List Marked) := none
  /-- Whether the last field has been ended by blanks alone. -/
  byBlanks : Bool := false

namespace Division

/-- Goes on with some characters. -/
def add (d : Division) (said : List Marked) : Division :=
  { d with current := some (d.current.getD [] ++ said), byBlanks := false }

/-- Ends the field under way, if there is one. -/
def close (d : Division) : Division := { d with fields := d.fields ++ d.current.toList, current := none }

/-- Goes on with a character that may separate fields. Blanks do so together, and any other separator by
itself, together with the blanks around it. -/
def addLoose (separators : List Char) (d : Division) (c : Char) : Division :=
  if !separators.contains c then d.add [(c, true)]
  else if usualSeparators.contains c then
    if d.current.isSome then { d.close with byBlanks := true } else d
  else if d.current.isNone && d.byBlanks then { d with byBlanks := false }
  else { fields := d.fields ++ [d.current.getD []] }

/-- Goes on with a piece. -/
def addPiece (separators : List Char) (d : Division) : Piece → Division
  | .fixed said => d.add (said.map (·, false))
  | .plain said => d.add (said.map (·, true))
  | .loose said => said.foldl (addLoose separators) d
  | .boundary => { d.close with byBlanks := false }

end Division

/-- The fields that some pieces make. -/
def divide (separators : List Char) (pieces : List Piece) : List (List Marked) :=
  (pieces.foldl (Division.addPiece separators) {}).close.fields

/-! ## Names of files -/

/-- The parts of a pattern between slashes. -/
def patternSteps : (step : List Marked) → List Marked → List (List Marked)
  | step, [] => [step]
  | step, (c, active) :: rest =>
    if c = '/' then step :: patternSteps [] rest else patternSteps (step ++ [(c, active)]) rest

/-- The names in the directory that a text leads to. -/
def namesIn (s : Program.Scene) (text : String) : List String :=
  let files := s.files
  match s.resolve (if text.isEmpty then "." else text) with
  | some path => ((files.filesIn path).map (·.1) ++ files.directoriesIn path).mergeSort fun a b => !(b < a)
  | none => []

/-- The names in a directory that one step of a pattern describes. A dot at the beginning of a name has to
be in the pattern. -/
def namesOf (s : Program.Scene) (directory : String) (step : List Marked) : List String :=
  if Pattern.isOpen step then
    (namesIn s directory).filter fun name =>
      Pattern.matchesText step name.toList &&
        (!name.startsWith "." || (step.head?).any fun (c, _) => c = '.')
  else [String.ofList (Pattern.plain step)]

/-- The texts that lead where a pattern does, given those that lead to where its next step starts. -/
def pathsOf (s : Program.Scene) : (before : List String) → List (List Marked) → List String
  | before, [] => before
  | before, [step] => before.flatMap fun text => (namesOf s text step).map (text ++ ·)
  | before, step :: rest =>
    pathsOf s (before.flatMap fun text => (namesOf s text step).map fun name => text ++ name ++ "/") rest

/-- The words that a field stands for. -/
def wordsOf (s : Program.Scene) (field : List Marked) : List String :=
  let itself := String.ofList (Pattern.plain field)
  if !Pattern.isOpen field then [itself]
  else
    let found := (pathsOf s [""] (patternSteps [] field)).filter fun text =>
      s.files.hasPathAt (s.pathText text)
    if found.isEmpty then [itself] else found

end Shell

end TaskLease
