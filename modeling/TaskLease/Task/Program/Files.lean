import TaskLease.Number.Numeral
import TaskLease.Task.Filter
import TaskLease.Task.Program.Scene
import TaskLease.Text.Blank

/-!
# Programs for files

The built-in programs that print files and directories, or parts of them, and those that create, copy and
remove them. What is not there fails, and the rest is done all the same.
-/

namespace TaskLease

namespace Program

/-! ## Printing -/

/-- Prints the content of files. -/
def concatenate (names : List String) : Running Nat := do
  let (texts, all) ← textsOf names
  texts.forM fun text => print (String.ofList text)
  return statusOf all

/-- The number that a flag gives, on its own or in the next word, and the words after it. -/
def countFlag (otherwise : Nat) : List String → Nat × List String
  | "-n" :: n :: rest => ((Numeral.natural? n.toList).getD otherwise, rest)
  | word :: rest =>
    match word.toList with
    | '-' :: 'n' :: cs => ((Numeral.natural? cs).getD otherwise, rest)
    | '-' :: cs =>
      match Numeral.natural? cs with
      | some n => (n, rest)
      | none => (otherwise, word :: rest)
    | _ => (otherwise, word :: rest)
  | [] => (otherwise, [])

/-- Prints some lines of files, or some of their characters if a flag says so. -/
def selectParts (select : {α : Type} → Nat → List α → List α) (words : List String) : Running Nat := do
  match words with
  | "-c" :: count :: names =>
    let (texts, all) ← textsOf names
    let count := (Numeral.natural? count.toList).getD 0
    texts.forM fun text => print (String.ofList (select count text))
    return statusOf all
  | words =>
    let (count, names) := countFlag 10 words
    let (texts, all) ← textsOf names
    texts.forM fun text => (select count (Filter.linesOf text)).forM fun line => printLine (String.ofList line)
    return statusOf all

/-- How many lines, words and bytes a text has. -/
def partCounts (text : List Char) : List Nat :=
  let blanked := String.ofList (text.map fun c => if Text.isBlank c then ' ' else c)
  [text.count '\n', (blanked.splitOn " ").countP fun word => word ≠ "", (String.ofList text).utf8ByteSize]

/-- Prints how many lines, words or bytes there are. -/
def countParts (words : List String) : Running Nat := do
  let (flags, names) := words.partition fun word => word.startsWith "-"
  let (texts, all) ← textsOf names
  let letters := flags.flatMap String.toList
  let chosen (text : List Char) : List Nat :=
    match partCounts text with
    | [lines, words, bytes] =>
      if flags.isEmpty then [lines, words, bytes]
      else
        (if letters.contains 'l' then [lines] else []) ++ (if letters.contains 'w' then [words] else []) ++
          (if letters.contains 'm' then [text.length] else []) ++
          if letters.contains 'c' then [bytes] else []
    | counts => counts
  let width := if names.isEmpty then 7 else (Text.numeral (((texts.flatMap partCounts).max?).getD 0)).length
  let line (text : List Char) : String :=
    let counts := chosen text
    let width := if counts.length = 1 && texts.length ≤ 1 then 0 else width
    " ".intercalate (counts.map fun n => String.ofList ((Text.numeral n).leftpad width ' '))
  if names.isEmpty then printLine (line (texts.headD []))
  else (names.zip texts).forM fun (name, text) => printLine s!"{line text} {name}"
  return statusOf all

/-! ## Changing -/

/-- Removes files and, if told so, directories. -/
def remove (words : List String) : Running Nat := do
  let (flags, names) := words.partition fun word => word.startsWith "-"
  let letters := flags.flatMap String.toList
  let deep := letters.any fun c => c = 'r' || c = 'R'
  let results ← names.mapM fun name => modifyGet fun (s : Scene) =>
    match s.resolve name with
    | some path =>
      if (s.files.content? path).isSome then (true, { s with files := (s.files.removeFile path).2 })
      else if s.files.isDirectory path then
        if deep then (true, { s with files := (s.files.removeDirectory path).2 }) else (false, s)
      else (letters.contains 'f', s)
    | none => (letters.contains 'f', s)
  return statusOf (results.all id)

/-- Creates directories, with those on the way to them if told so. -/
def makeDirectories (words : List String) : Running Nat := do
  let (flags, names) := words.partition fun word => word.startsWith "-"
  let deep := (flags.flatMap String.toList).contains 'p'
  let results ← names.mapM fun name => modifyGet fun (s : Scene) =>
    let possible := deep || ((s.resolve name).any fun path => !s.files.hasPath path)
    if possible then
      let (made, files) := s.files.makeDirectoriesAt (s.pathText name)
      (made.isOk, { s with files })
    else (false, s)
  return statusOf (results.all id)

/-- Creates files that are not there. -/
def touch (names : List String) : Running Nat := do
  let results ← names.mapM fun name => do
    let s ← get
    if s.files.isDirectoryAt (s.pathText name) then return true else writeTo name true ""
  return statusOf (results.all id)

/-- Copies a file, or moves it. Into a directory it goes under its own name. -/
def copy (moves : Bool) (words : List String) : Running Nat := do
  match words.filter fun word => !word.startsWith "-" with
  | [source, target] =>
    let s ← get
    match s.resolve source with
    | none => return 1
    | some path =>
      match s.files.content? path with
      | none => return 1
      | some content =>
        let target :=
          if s.files.isDirectoryAt (s.pathText target) then target ++ "/" ++ path.getLastD "" else target
        match s.resolve target with
        | none => return 1
        | some goal =>
          if !s.files.canOpen goal then return 1
          let files := if moves && goal ≠ path then (s.files.removeFile path).2 else s.files
          set { s with files := files.write goal content }
          return 0
  | _ => return 1

/-- Writes what can be read to files, and prints it. -/
def branch (words : List String) : Running Nat := do
  let input := String.ofList (← get).input
  let (flags, names) := words.partition fun word => word.startsWith "-"
  let results ← names.mapM fun name => writeTo name (flags.contains "-a") input
  print input
  return statusOf (results.all id)

/-! ## Names -/

/-- The names in a directory that are shown: those that do not begin with a dot, sorted. -/
def shownNames (files : FileTree) (path : Path) : List String :=
  let found := (files.filesIn path).map (·.1) ++ files.directoriesIn path
  (found.filter fun name => !name.startsWith ".").mergeSort fun a b => !(b < a)

/-- Prints the names of files, and the names in directories. -/
def list (words : List String) : Running Nat := do
  let s ← get
  let names := words.filter (· ≠ "-1")
  let names := (if names.isEmpty then ["."] else names).mergeSort fun a b => !(b < a)
  let isDirectory (name : String) : Bool := s.files.isDirectoryAt (s.pathText name)
  let (there, missing) := names.partition fun name => s.files.hasPathAt (s.pathText name)
  let (directories, plain) := there.partition isDirectory
  plain.forM printLine
  directories.zipIdx.forM fun (name, i) => do
    if 1 < names.length then
      if 0 < i || !plain.isEmpty then printLine ""
      printLine s!"{name}:"
    ((s.resolve name).toList.flatMap (shownNames s.files)).forM printLine
  return if missing.isEmpty then 0 else 2

/-- Prints the last step of a path, without an ending. -/
def printLastStep (words : List String) : Running Nat := do
  match words with
  | [] => return 1
  | path :: rest =>
    let last := ((path.splitOn "/").filter (· ≠ "")).getLastD "/"
    let ending := rest.headD ""
    printLine (if last.endsWith ending && last ≠ ending then (last.dropEnd ending.length).toString else last)
    return 0

/-- Prints a path without its last step. -/
def printParent (words : List String) : Running Nat := do
  words.forM fun path => do
    let steps := (path.splitOn "/").reverse.dropWhile (· = "")
    let before := (steps.drop 1).dropWhile (· = "")
    printLine (if before.isEmpty then (if path.startsWith "/" then "/" else ".")
      else "/".intercalate before.reverse)
  return statusOf (!words.isEmpty)

end Program

end TaskLease
