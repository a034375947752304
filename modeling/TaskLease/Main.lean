import Std.Time.DateTime.Timestamp
import TaskLease.Command.Application

/-!
# The command line

Reads what an invocation needs of the world into a value, runs the invocation on it, and writes back what
has changed. Processes that use one data directory take turns, so each sees the files as the one before
has left them. Stores behind a connection can not be reached from here, and a child is one of the built-in
programs.
-/

namespace TaskLease

namespace CommandLine

/-- The content of a file, if it can be read. -/
def content? (name : String) : IO (Option ByteArray) := do
  try
    return some (← IO.FS.readBinFile name)
  catch _ =>
    return none

/-- The parts of some bytes between zeros. -/
def betweenZeros (bytes : ByteArray) : List (List UInt8) := bytes.data.toList.splitOn 0

/-- The variable in a text with an equals sign. -/
def entryOf? (entry : List UInt8) : Option (String × String) := do
  let text ← String.fromUTF8? ⟨entry.toArray⟩
  let cs := text.toList
  match cs.dropWhile (· ≠ '=') with
  | _ :: value => some (String.ofList (cs.takeWhile (· ≠ '=')), String.ofList value)
  | [] => none

/-- The variables of this process. -/
def bindings : IO Environment.Bindings := do
  let content := (← content? "/proc/self/environ").getD .empty
  return .ofList ((betweenZeros content).filterMap entryOf?)

/-- The present instant. -/
def presentInstant : IO Instant := do
  let nanos := (← Std.Time.Timestamp.now).toNanosecondsSinceUnixEpoch.val
  return (Instant.mk? (nanos / 1000000000) (nanos % 1000000000).toNat).getD .epoch

/-- The identity of this process: the name of its host, and its number. -/
def identity : IO Holder := do
  let host := Text.readable ((← content? "/etc/hostname").getD .empty).data.toList
  let state := Text.readable ((← content? "/proc/self/stat").getD .empty).data.toList
  let number := String.ofList (state.toList.takeWhile Char.isDigit)
  match Holder.make s!"{host.trimAscii}:{number}" with
  | .ok holder => return holder
  | .error _ => return ⟨"unknown", by decide⟩

/-- The files that settings may come from, as far as they are there. -/
def settingFiles (given : Environment.Bindings) : IO Settings.Files := do
  let read (found : Table String ByteArray) (names : List String) : IO (Table String ByteArray) :=
    names.foldlM (fun found name => do
      match ← content? name with
      | some content => return found.insert name content
      | none => return found) found
  let found ← read ∅ [Settings.environmentFile]
  let profile := Environment.profile (Settings.bindings found.get? given)
  let found ← read found
    (Settings.candidates Settings.defaultsName ++ Settings.candidates (Settings.profileName profile))
  return found.get?

/-- Where paths lead to: those in the directory of the record files there, all others to the present
directory. -/
structure Places where
  locks : Path
  /-- The name of the directory of the record files. -/
  locksText : String

/-- The name that a path has in the world. -/
def Places.locate (p : Places) (path : Path) : String :=
  if p.locks.isPrefixOf path then "/".intercalate (p.locksText :: path.drop p.locks.length)
  else "/".intercalate path

/-- Writes back what has changed from one tree to another. -/
def writeBack (places : Places) (old new : FileTree) : IO Unit := do
  for path in new.directories do
    if !old.isDirectory path then IO.FS.createDirAll (places.locate path)
  for (path, content) in new.files.entries do
    unless (old.content? path).map (·.data) = some content.data do
      IO.FS.writeBinFile (places.locate path) content
  for (path, _) in old.files.entries do
    if (new.content? path).isNone then IO.FS.removeFile (places.locate path)

/-- The lock that an invocation is about. -/
def lockName : Invocation → Option String
  | .run a => some a.name
  | .status name => some name
  | .initSchema => none

/-- Runs an invocation in the data directory that the settings choose, while no other process does. -/
def inDataDirectory (around : Surroundings) (invocation : Invocation) (sources : Settings.Files)
    (dataDir : String) : IO Report := do
  let locksText := FileStore.locksText dataDir
  IO.FS.createDirAll locksText
  let guardFile ← IO.FS.Handle.mk (locksText ++ "/.turn") .append
  guardFile.lock
  let (made, tree) := FileStore.create dataDir .empty
  match made with
  | .error fault => return Application.report (.error (.lock (.storage fault))) ""
  | .ok store =>
    let places : Places := ⟨store.locks, locksText⟩
    let tree ← ((lockName invocation).toList.map store.recordPath).foldlM (fun tree path => do
      match ← content? (places.locate path) with
      | some content => return tree.write path content
      | none => return tree) tree
    let (report, after) := Application.start around invocation sources tree
    writeBack places tree after
    return report

/-- Runs an invocation. -/
def start (around : Surroundings) (invocation : Invocation) : IO Report := do
  let sources ← settingFiles around.bindings
  match Settings.load sources around.bindings with
  | .error fault => return Application.report (.error (.settings fault)) ""
  | .ok settings =>
    if settings.store.kind = .file then
      try
        inDataDirectory around invocation sources settings.store.file.dataDir
      catch e =>
        return Application.report (.error (.lock (.storage (.fileIO e.toString)))) ""
    else return (Application.start around invocation sources .empty).1

/-- Runs the program with its arguments. -/
def run (arguments : List String) : IO UInt32 := do
  match Arguments.parse arguments with
  | .error (.version text) =>
    IO.print text
    return 0
  | .error fault =>
    IO.eprintln (fault.message?.getD s!"usage: {programName} run | status | init-schema")
    return fault.exitStatus.toUInt32
  | .ok invocation =>
    let around : Surroundings := {
      bindings := ← bindings
      now := ← presentInstant
      detected := ← identity
      reachable := false }
    let report ← start around invocation
    IO.print report.output
    if let some failure := report.failure then IO.eprintln s!"Error: {failure.message}"
    return (match report.killedBy with
      | some signal => Shell.signalStatus signal
      | none => report.exitStatus).toUInt32

end CommandLine

end TaskLease

/-- The program. -/
def main (arguments : List String) : IO UInt32 := TaskLease.CommandLine.run arguments
