import TaskLease.Command.RunLocked
import TaskLease.Store.Backend
import TaskLease.Task.Shell.Run

/-!
# The application

One invocation of the program: its arguments are parsed, its settings loaded, its store connected, and then
its command is run. What goes wrong on the way ends it, and nothing is done after.

An invocation sees its surroundings through `Surroundings` and the files, and leaves a `Report` and files.
-/

namespace TaskLease

/-- What an invocation finds around it, besides files. -/
structure Surroundings where
  bindings : Environment.Bindings
  /-- The present instant. -/
  now : Instant
  /-- The identity of a holder that the settings give none. -/
  detected : Holder
  /-- Whether stores behind a connection can be reached. -/
  reachable : Bool

/-- What an invocation leaves, besides files. -/
structure Report where
  exitStatus : Nat
  /-- What it has printed. -/
  output : String := ""
  /-- The failure that it ended with. -/
  failure : Option Failure := none
  /-- The signal that has ended it, if one has. -/
  killedBy : Option Nat := none
  /-- When it came to its end, if that is known. -/
  endedAt : Option Instant := none

/-- A store at work, its clock, and what has been printed so far. -/
structure Machine where
  backend : Backend
  clock : Instant
  output : String := ""
  /-- The signal that has ended the process, if one has. Nothing is done to the store after that. -/
  killedBy : Option Nat := none

namespace Machine

/-- The accessor of a holder to the store. -/
def accessor (strategy : AcquireStrategy) (holder : Holder) : Accessor Machine where
  strategy
  perform op config := fun m =>
    if m.killedBy.isSome then (.error .unavailable, m)
    else
      let (answer, backend) := m.backend.perform holder.identity m.clock op config
      (answer, { m with backend })

/-- Does something to the store. -/
def onBackend {α : Type} (f : Backend → α × Backend) : StateM Machine α := fun m =>
  let (answer, backend) := f m.backend
  (answer, { m with backend })

/-- Prints a text. -/
def print (text : String) : StateM Machine Unit := modify fun m => { m with output := m.output ++ text }

/-- The machine after the files have changed. -/
def withFiles (m : Machine) (files : FileTree) : Machine :=
  match m.backend with
  | .file store _ => { m with backend := .file store files }
  | _ => m

/-- Runs a built-in program. It prints and changes files, and the time that it takes is told. -/
def runProgram (bindings : Environment.Bindings) (words : List String) :
    StateM Machine (ChildEnd × Duration) := fun m =>
  let (how, scene) := (Program.start words).run { files := m.backend.files .empty, bindings }
  ((how, scene.elapsed), { m.withFiles scene.files with
    output := m.output ++ scene.output
    killedBy := scene.parentKilledBy })

/-- Sets the clock. -/
def setClock (now : Instant) (m : Machine) : Machine := { m with clock := now }

end Machine

namespace StoreSettings

/-- The store that settings choose. The directories for record files are created. -/
def backend (s : StoreSettings) (files : FileTree) : Except StoreFault Backend × FileTree :=
  match s.kind with
  | .file =>
    let (store, files) := FileStore.create s.file.dataDir files
    (store.map fun store => .file store files, files)
  | .redis => (.ok (.redis ⟨s.redis.keySpace, s.redis.environment⟩ .empty {}), files)
  | .mysql => (.ok (.sql .mysql s.mysql.table {}), files)
  | .postgresql => (.ok (.sql .postgresql s.postgresql.table {}), files)

/-- Connects to the store that settings choose. -/
def connect (s : StoreSettings) (around : Surroundings) (files : FileTree) :
    Except StoreFault Backend × FileTree :=
  match s.backend files with
  | (.error fault, files) => (.error fault, files)
  | (.ok backend, files) =>
    if s.kind = .file ∨ around.reachable then
      let (answer, backend) := backend.connect around.now
      (answer.map fun () => backend, backend.files files)
    else (.error (.connection "the server can not be reached"), files)

end StoreSettings

namespace Application

/-- What a store's answer means for a command. -/
def stored {α : Type} (answer : Except StoreFault α) : Except Failure α :=
  answer.mapError fun fault => .lock (.storage fault)

/-- Does something to the machine of a session. -/
def onMachine {α : Type} (f : StateM Machine α) : StateM (Session Machine) α :=
  Session.onStage fun stage =>
    let (answer, store) := f stage.store
    (answer, { stage with store })

/-- Lets some time pass since the lock was acquired. A lock that is kept alive is renewed meanwhile, each
time at its own instant, and at most as often as `rings` says. -/
def passTime (accessor : Accessor Machine) (since : Instant) (length : Duration) :
    (rings : Nat) → StateM (Session Machine) Unit
  | 0 => onMachine (modify (Machine.setClock (since.add length)))
  | rings + 1 => do
    match (← get).handle.bind Handle.due? with
    | none => passTime accessor since length 0
    | some due =>
      if length < due then passTime accessor since length 0
      else
        onMachine (modify (Machine.setClock (since.add due)))
        Session.onHandle () fun handle provider => do
          let (handle, provider) ← handle.ring accessor due due provider
          return ((), handle, provider)
        passTime accessor since length rings

/-- Runs a program while its lock is held. -/
def runChild (accessor : Accessor Machine) (bindings : Environment.Bindings) (words : List String) :
    StateM (Session Machine) ChildEnd := do
  let (how, length) ← onMachine (Machine.runProgram bindings words)
  let session ← get
  passTime accessor session.stage.store.clock length
    ((session.handle.map (Handle.ringsBy length)).getD 0)
  return how

/-- Runs a program under a lock. -/
def run (settings : LockSettings) (holder : Holder) (bindings : Environment.Bindings)
    (a : RunArguments) : StateM Machine (Except Failure Nat) := fun m =>
  let accessor := Machine.accessor m.backend.strategy holder
  let (result, session) :=
    (runLocked settings accessor a (runChild accessor bindings)).run (.begin settings a m)
  (result, session.stage.store)

/-- Prints the record of a lock. -/
def status (name : String) : StateM Machine (Except Failure Nat) := do
  let now := (← get).clock
  match stored (← Machine.onBackend (Backend.find now name)) with
  | .error failure => return .error failure
  | .ok (some r) =>
    Machine.print (r.write ++ "\n")
    return .ok 0
  | .ok none =>
    Machine.print s!"no record for lock '{name}'\n"
    return .ok 0

/-- Creates what records are kept in. -/
def initSchema : StateM Machine (Except Failure Nat) := do
  return (stored (← Machine.onBackend Backend.prepare)).map fun _ => 0

/-- Runs a command. -/
def perform (settings : LockSettings) (holder : Holder) (bindings : Environment.Bindings) :
    Invocation → StateM Machine (Except Failure Nat)
  | .run a => run settings holder bindings a
  | .status name => status name
  | .initSchema => initSchema

/-- A report on how a command ended. -/
def report (result : Except Failure Nat) (output : String) : Report where
  exitStatus := exitStatus result
  output
  failure := match result with
    | .ok _ => none
    | .error failure => some failure

/-- Runs an invocation whose arguments are in order, given where settings are read from. -/
def start (around : Surroundings) (invocation : Invocation) (sources : Settings.Files)
    (files : FileTree) : Report × FileTree :=
  match Settings.load sources around.bindings with
  | .error fault => (report (.error (.settings fault)) "", files)
  | .ok settings =>
    match settings.lock.resolveHolder around.detected with
    | .error e => (report (.error (.lock e)) "", files)
    | .ok holder =>
      match settings.store.connect around files with
      | (.error fault, files) => (report (stored (.error fault)) "", files)
      | (.ok backend, files) =>
        let bindings := Settings.bindings sources around.bindings
        let (result, m) :=
          (perform settings.lock holder bindings invocation).run { backend, clock := around.now }
        let report := { report result m.output with killedBy := m.killedBy, endedAt := some m.clock }
        (report, m.backend.files files)

/-- Runs an invocation with its arguments. Help and the version are printed. -/
def invoke (around : Surroundings) (arguments : List String) (files : FileTree) : Report × FileTree :=
  match Arguments.parse arguments with
  | .error fault =>
    let output := match fault with
      | .version text => text
      | _ => ""
    ({ exitStatus := fault.exitStatus, output }, files)
  | .ok invocation => start around invocation files.contentAt files

end Application

end TaskLease
