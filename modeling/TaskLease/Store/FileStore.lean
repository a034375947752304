import TaskLease.Store.FileTree
import TaskLease.Store.RecordFile

/-!
# Records in files

A store of record files in one directory, for processes that share a host. Every operation is one
transaction on the file of its lock, so the processes see it as one atomic unit, and an insert takes
over an expired record.
-/

namespace TaskLease

/-- Where the record files of a store lie. -/
structure FileStore where
  /-- The data directory. -/
  base : Path
  /-- The directory of the record files, which is in it. -/
  locks : Path := base ++ ["locks"]
deriving DecidableEq, Repr

namespace FileStore

/-- The path of a lock's record file. -/
def recordPath (s : FileStore) (name : String) : Path := s.locks ++ [RecordFile.fileName name]

/-- The text for the directory of the record files, given that for the data directory. -/
def locksText (dataDir : String) : String :=
  if dataDir = "" ∨ dataDir.endsWith "/" then dataDir ++ "locks" else dataDir ++ "/locks"

/-- Creates the directories of a store where they are missing, given the text for its data directory. An
empty text means no directory, and the record files are next to it. -/
def create (dataDir : String) (tree : FileTree) : Except StoreFault FileStore × FileTree :=
  let (made, tree) := tree.makeDirectoriesAt (locksText dataDir)
  (made.map fun locks => { base := if dataDir = "" then [""] else locks.parent, locks }, tree)

/-- Creates the directory of the record files where it is missing. -/
def prepare (s : FileStore) (tree : FileTree) : Except StoreFault Unit × FileTree :=
  let (made, tree) := tree.makeDirectories s.locks
  (made.map fun _ => (), tree)

/-- One transaction on the record file of a lock. -/
def transact {α : Type} (s : FileStore) (name : String) (decide : Option LockRecord → Verdict α)
    (tree : FileTree) : Except StoreFault α × FileTree :=
  let path := s.recordPath name
  if tree.canOpen path then
    let (answer, content) := RecordFile.transact decide (tree.content? path)
    (answer, tree.write path content)
  else (.error (.fileIO "the record file can not be opened"), tree)

/-- Performs one operation. -/
def perform (s : FileStore) (op : Operation) (d : Demand) (tree : FileTree) :
    Except StoreFault Bool × FileTree :=
  s.transact d.config.name (op.verdict true d) tree

/-- The record of a lock. Looking for it changes nothing. -/
def find (s : FileStore) (name : String) (tree : FileTree) :
    Except StoreFault (Option LockRecord) :=
  let path := s.recordPath name
  if tree.isDirectory path then .error (.fileIO "the record file is a directory")
  else RecordFile.read (tree.content? path)

/-- The path of a file that is created and removed again to see whether that can be done. -/
def probePath (s : FileStore) : Path := s.locks ++ [".health_check"]

/-- Whether the store can be used: its directories are there and files can be created and removed in
them. -/
def checkHealth (s : FileStore) (tree : FileTree) : Except StoreFault Unit × FileTree :=
  if !tree.hasPath s.base then (.error .unavailable, tree)
  else if tree.canOpen s.probePath then (.ok (), (tree.removeFile s.probePath).2)
  else (.error (.fileIO "Health check failed"), tree)

end FileStore

end TaskLease
