import TaskLease.Settings.Environment
import TaskLease.Store.FileTree
import TaskLease.Text.Utf8
import TaskLease.Time.Duration

/-!
# Scenes

What built-in programs act on: files and a directory among them, variables, a text that can be read, and a
text that grows as programs print. A program is a function from one scene to the next that gives a status.
-/

namespace TaskLease

namespace Program

/-- What programs act on and leave behind. -/
structure Scene where
  files : FileTree
  /-- The directory that programs are in. -/
  place : String := ""
  bindings : Environment.Bindings := ∅
  /-- What can be read. -/
  input : List Char := []
  /-- What has been printed. -/
  output : String := ""
  /-- The time that has passed. -/
  elapsed : Duration := .zero
  /-- The signal that has ended the process which waits for the program. -/
  parentKilledBy : Option Nat := none

/-- The text that leads from the middle of the files to where a text leads from the directory that
programs are in. -/
def Scene.pathText (s : Scene) (name : String) : String :=
  if s.place.isEmpty || name.isEmpty || name.startsWith "/" then name else s!"{s.place}/{name}"

/-- The path that a text means. -/
def Scene.resolve (s : Scene) (name : String) : Option Path := s.files.resolve (s.pathText name)

/-- A program at work on a scene. -/
abbrev Running := StateM Scene

/-- Prints a text. -/
def print (text : String) : Running Unit := modify fun s => { s with output := s.output ++ text }

/-- Prints a line. -/
def printLine (text : String) : Running Unit := print (text ++ "\n")

/-- The status of a program that has done what it should, or not. -/
def statusOf (done : Bool) : Nat := if done then 0 else 1

/-! ## Files -/

/-- The text of a file, or of what can be read where there is a dash. -/
def textOf (s : Scene) (name : String) : Option (List Char) :=
  if name = "-" then some s.input
  else (s.files.contentAt (s.pathText name)).map fun content => (Text.readable content.data.toList).toList

/-- The texts of some files; of what can be read, if none are named. Tells whether all are there. -/
def textsOf (names : List String) : Running (List (List Char) × Bool) := fun s =>
  let texts := (if names.isEmpty then ["-"] else names).map (textOf s)
  ((texts.filterMap id, texts.all Option.isSome), s)

/-- Writes to the file that a text means, behind what it has or in its place. Tells whether that can be
done. -/
def writeTo (name : String) (appends : Bool) (text : String) : Running Bool := modifyGet fun s =>
  match s.resolve name with
  | some path =>
    let old := if appends then (s.files.content? path).getD .empty else .empty
    if s.files.canOpen path then
      (true, { s with files := s.files.write path (old ++ text.toByteArray) })
    else (false, s)
  | none => (false, s)

end Program

end TaskLease
