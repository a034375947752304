import TaskLease.Lock.Fault
import TaskLease.Table

/-!
# File trees

The part of a file system that the library touches: directories and files around one place, files by path
with their bytes. A text with slashes is followed step by step from that place, or from the root, and every
step but the last has to lead to a directory. Creating or opening a file needs its directory, no file name
may be longer than 255 bytes, and no text longer than 4095.
-/

namespace TaskLease

/-- The names that lead from the place in the middle of a tree to a file or directory. A path that begins
with two dots leads above that place, and one that begins with a slash starts from the root. -/
abbrev Path := List String

namespace Path

/-- The root. -/
def root : Path := ["/"]

/-- The directory that a path is in. -/
def parent (path : Path) : Path :=
  match path.getLast? with
  | none | some ".." => path ++ [".."]
  | some "/" => path
  | some _ => path.dropLast

/-- Where a text with slashes starts. -/
def start (text : String) : Path := if text.startsWith "/" then root else []

/-- The steps that a text with slashes consists of. -/
def steps (text : String) : List String := text.splitOn "/"

/-- Whether a step stays where it is. -/
def staysAt (name : String) : Bool := name = "" || name = "."

/-- The path that a text with slashes means where all directories on the way are there. -/
def ofText (text : String) : Path :=
  (steps text).foldl (fun path name =>
    if staysAt name then path
    else if name = ".." then path.parent
    else path ++ [name]) (start text)

end Path

/-- Directories and files. The place in the middle of the tree, those above it and the root are always
there. -/
structure FileTree where
  directories : List Path
  files : Table Path ByteArray

namespace FileTree

/-- A tree without files, and with no directories but those that are always there. -/
def empty : FileTree := ⟨[], ∅⟩

instance : Inhabited FileTree := ⟨empty⟩

/-- The longest file name, in bytes. -/
def maxNameBytes : Nat := 255

/-- The longest text that means a path, in bytes. -/
def maxPathBytes : Nat := 4095

/-- Whether a path leads to a directory. -/
def isDirectory (t : FileTree) (path : Path) : Bool :=
  (path.all fun name => name = "..") || path = Path.root || t.directories.contains path

/-- The content of the file at a path. -/
def content? (t : FileTree) (path : Path) : Option ByteArray := t.files.get? path

/-- Whether there is anything at a path. -/
def hasPath (t : FileTree) (path : Path) : Bool := t.isDirectory path || (t.content? path).isSome

/-! ## Following a text -/

/-- Whether a text can mean a path at all. -/
def isPathText (text : String) : Bool :=
  text ≠ "" && text.utf8ByteSize ≤ maxPathBytes && !text.toList.contains '\x00'

/-- One step from a path. -/
def step (t : FileTree) (path : Path) (name : String) : Option Path :=
  if !t.isDirectory path then none
  else if Path.staysAt name then some path
  else if name = ".." then some path.parent
  else if name.utf8ByteSize ≤ maxNameBytes then some (path ++ [name])
  else none

/-- The path that a text means, if it can be followed. There need not be anything at its end. -/
def resolve (t : FileTree) (text : String) : Option Path :=
  if isPathText text then (Path.steps text).foldlM t.step (Path.start text) else none

/-- The content of the file that a text means. -/
def contentAt (t : FileTree) (text : String) : Option ByteArray := (t.resolve text).bind t.content?

/-- Whether there is anything where a text leads. -/
def hasPathAt (t : FileTree) (text : String) : Bool := (t.resolve text).any t.hasPath

/-- Whether a text leads to a directory. -/
def isDirectoryAt (t : FileTree) (text : String) : Bool := (t.resolve text).any t.isDirectory

/-! ## Directories -/

/-- Creates a directory in a place where its own directory exists. -/
def makeDirectory (t : FileTree) (path : Path) : Except StoreFault FileTree :=
  if t.isDirectory path then .ok t
  else if (t.content? path).isSome then .error (.fileIO "not a directory")
  else if (path.getLastD "").utf8ByteSize ≤ maxNameBytes then
    .ok { t with directories := t.directories ++ [path] }
  else .error (.fileIO "the name of a directory is too long")

/-- Follows steps from a path, and creates the directories that are missing. Those that could be created
before a step that can not be taken stay. -/
def makeDirectoriesFrom (path : Path) : (steps : List String) → FileTree →
    Except StoreFault Path × FileTree
  | [], t => (.ok path, t)
  | name :: rest, t =>
    if Path.staysAt name then makeDirectoriesFrom path rest t
    else if name = ".." then makeDirectoriesFrom path.parent rest t
    else
      match t.makeDirectory (path ++ [name]) with
      | .ok t => makeDirectoriesFrom (path ++ [name]) rest t
      | .error fault => (.error fault, t)

/-- Creates the directory at a path and all directories on the way to it. -/
def makeDirectories (t : FileTree) (path : Path) : Except StoreFault Path × FileTree :=
  makeDirectoriesFrom [] path t

/-- Creates the directory that a text means and all directories on the way to it. -/
def makeDirectoriesAt (t : FileTree) (text : String) : Except StoreFault Path × FileTree :=
  if isPathText text then makeDirectoriesFrom (Path.start text) (Path.steps text) t
  else (.error (.fileIO "not the path of a directory"), t)

/-! ## Files -/

/-- Whether a file can be opened or created at a path. -/
def canOpen (t : FileTree) (path : Path) : Bool :=
  match path.getLast? with
  | none => false
  | some name =>
    t.isDirectory path.dropLast && !t.isDirectory path && name.utf8ByteSize ≤ maxNameBytes

/-- Gives a file new content. -/
def write (t : FileTree) (path : Path) (content : ByteArray) : FileTree :=
  { t with files := t.files.insert path content }

/-- Puts a file into a tree together with the directories on the way to it. -/
def place (t : FileTree) (path : Path) (content : ByteArray) : FileTree :=
  match t.makeDirectories path.dropLast with
  | (.ok _, t) => t.write path content
  | (.error _, t) => t

/-- Removes a file, and tells whether there was one. -/
def removeFile (t : FileTree) (path : Path) : Bool × FileTree :=
  ((t.content? path).isSome, { t with files := t.files.erase path })

/-- Removes a directory with all that is below it, and tells whether there was one. -/
def removeDirectory (t : FileTree) (path : Path) : Bool × FileTree :=
  (t.isDirectory path,
    { directories := t.directories.filter fun p => !path.isPrefixOf p
      files := ⟨t.files.entries.filter fun e => !path.isPrefixOf e.1⟩ })

/-- The files directly in a directory, by name. -/
def filesIn (t : FileTree) (directory : Path) : List (String × ByteArray) :=
  t.files.entries.filterMap fun e =>
    match e.1.getLast? with
    | some name => if e.1.dropLast = directory then some (name, e.2) else none
    | none => none

/-- The names of the directories directly in a directory. -/
def directoriesIn (t : FileTree) (directory : Path) : List String :=
  t.directories.filterMap fun path =>
    match path.getLast? with
    | some name => if path.dropLast = directory then some name else none
    | none => none

end FileTree

end TaskLease
