import TaskLease.Simulation.Ringing

/-!
# Runs

`runSteps` runs the steps of a simulation one after the other, each to an observation. A step that speaks
of a provider, handle or holder that does not exist does nothing; one that asks for a configuration that
is refused does nothing either, and its answer is the error.
-/

namespace TaskLease

namespace Simulation

open State

/-- What the store shows of itself, and the site without the commands shown. -/
def Site.show (mentioned : List String) (s : Site) : View × Site :=
  match s.backend with
  | .memory .. | .file .. =>
    (.records (mentioned.map fun name => (name, (s.backend.find s.clock name).1)), s)
  | .redis client server wire =>
    (.hashes server.hashes.entries wire.sent,
      { s with backend := .redis client server { wire with sent := [] } })
  | .sql dialect table wire =>
    (.statements wire.sent, { s with backend := .sql dialect table { wire with sent := [] } })

/-- Ends a step with an observation. The next one begins where this one ends. -/
def observe (answer : Answer) : Running Observation := fun s =>
  let (view, site) := s.site.show s.mentioned
  (.seen answer { calls := site.calls, events := s.events, view },
    { s with site := { site with calls := [] }, events := [] })

/-- Replaces the replies that are queued. -/
def Replies.queue (replies : Replies) : Backend → Backend
  | .redis client server wire =>
    .redis client server { wire with replies := match replies with | .redis queue => queue | _ => [] }
  | .sql dialect table wire =>
    .sql dialect table { wire with replies := match replies with | .sql queue => queue | _ => [] }
  | backend => backend

/-- Begins a step. -/
def Opening.begin (opening : Opening) : Running Unit :=
  modify fun s =>
    let mentioned := match opening.mentions with
      | some name => if s.mentioned.contains name then s.mentioned else s.mentioned ++ [name]
      | none => s.mentioned
    { s with mentioned, site := { s.site with backend := opening.replies.queue s.site.backend } }

/-- The answer that a result without a value makes. -/
def Answer.ofUnit : Except LockError Unit → Answer
  | .ok () => .done
  | .error e => .lockError e

/-- The answer that a truth value makes. -/
def Answer.ofBool : Except LockError Bool → Answer
  | .ok value => .truth value
  | .error e => .lockError e

/-- Goes on with the configuration that a request asks for. -/
def Request.checked (request : Request) (go : LockConfig → Running Answer) : Running Answer :=
  match request.check with
  | .ok config => go config
  | .error e => return .lockError e

/-- Goes on with the holder of a label. -/
def withHolder (label : String) (go : Holder → Running Answer) : Running Answer := do
  match (← get).holders.get? label with
  | some holder => go holder
  | none => return .unknownTarget

/-- Goes on with the provider of a label. -/
def withProvider (label : String) (go : Provider → Running Answer) : Running Answer := do
  match (← get).provider? label with
  | some (entry, _) => go entry.provider
  | none => return .unknownTarget

/-- Goes on with the handle of a label; the answer shows the handle's configuration afterwards. -/
def withHandle (label : String) (go : Nat → Running Answer) : Running Answer := do
  match (← get).labels.get? label with
  | none => return .unknownTarget
  | some number =>
    let answer ← go number
    match (← get).handles.get? number with
    | some entry => return .handle answer entry.handle.config
    | none => return .unknownTarget

/-- Acquires a lock, and stores its handle under a label. A handle that was there is then given up. -/
def acquireAs (provider label : String) (config : LockConfig) : Running Answer := do
  match ← State.tryLock provider config with
  | none => return .unknownTarget
  | some (.error e) => return .lockError e
  | some (.ok none) => return .attempted none
  | some (.ok (some number)) =>
    let s ← get
    let old := s.labels.get? label
    set { s with labels := s.labels.insert label number }
    match old with
    | some other => State.drop other
    | none => pure ()
    return .attempted (((← get).handles.get? number).map fun entry => entry.handle.config)

/-- Removes a record from a store, and tells whether there was one. -/
def removeRecord (name : String) : Backend → Bool × Backend
  | .memory strategy records => (records.contains name, .memory strategy (records.erase name))
  | .file store tree =>
    let (found, tree) := tree.removeFile (store.recordPath name)
    (found, .file store tree)
  | .redis client server wire =>
    (server.hashes.contains name, .redis client ⟨server.hashes.erase name⟩ wire)
  | backend => (false, backend)

/-- Puts something into a store from outside. -/
def Intrusion.put : Intrusion → Backend → Backend
  | .content name text, .file store tree =>
    let path := store.recordPath name
    .file store (if tree.canOpen path then tree.write path text.toByteArray else tree)
  | .hash key fields, .redis client server wire =>
    .redis client
      ⟨if fields.entries.isEmpty then server.hashes.erase key else server.hashes.insert key fields⟩ wire
  | _, backend => backend

/-- Removes a directory of a file store, and tells whether there was one. -/
def Place.remove (place : Place) : Backend → Bool × Backend
  | .file store tree =>
    let path := match place with
      | .base => store.base
      | .locks => store.locks
    let (found, tree) := tree.removeDirectory path
    (found, .file store tree)
  | backend => (false, backend)

/-- The record files of a file store. -/
def recordFiles : Backend → List (String × ByteArray)
  | .file store tree => tree.filesIn store.locks
  | _ => []

/-- Does what an action asks, under the locks around the running task. -/
def Action.run (stack : LockStack Nat) : Action → Running Answer
  | .tryLock provider handle request =>
    withProvider provider fun _ => request.checked (acquireAs provider handle)
  | .unlock handle =>
    withHandle handle fun number => return .ofUnit ((← State.unlock number).getD (.ok ()))
  | .extend handle atMost atLeast =>
    withHandle handle fun number =>
      return .ofBool ((← State.extend number atMost atLeast).getD (.ok false))
  | .inspect handle => withHandle handle fun _ => return .nothing
  | .drop handle => do
    match (← get).labels.get? handle with
    | some number => State.drop number; return .done
    | none => return .unknownTarget
  | .clearCache provider =>
    withProvider provider fun _ => do
      let _ ← onProvider provider fun _ p => return ((), p.clearCache)
      match (← get).provider? provider with
      | some (entry, _) => withHolder entry.holder fun holder => return .holder holder.identity
      | none => return .unknownTarget
  | .activeLocks provider =>
    withProvider provider fun p =>
      match p.tracker? with
      | some tracker => return .configs tracker.activeLocks
      | none => return .unknownTarget
  | .activeLock provider name =>
    withProvider provider fun p =>
      match p.tracker? with
      | some tracker => return .config (tracker.activeLock? name)
      | none => return .unknownTarget
  | .assertLocked => return .ofUnit stack.assertLocked
  | .isLocked name => return .truth (stack.isLocked name)
  | .extendActive atMost atLeast =>
    return .ofUnit (← State.locking.extendActive stack atMost atLeast)
  | .perform op label request =>
    withHolder label fun holder => request.checked fun config => do
      match ← onSite (Site.perform label holder op config) with
      | .error fault => return .storeFault fault
      | .ok applied => return if op = .unlock then .done else .truth applied
  | .find label name =>
    withHolder label fun holder => do
      match ← onSite (Site.find label holder name) with
      | .error fault => return .storeFault fault
      | .ok found =>
        let now := (← get).site.clock
        return .record (found.map fun r => (r.isHeldAt now, r))
  | .checkHealth label =>
    withHolder label fun _ => do
      let now := (← get).site.clock
      match ← onSite (Site.onBackend (Backend.checkHealth now)) with
      | .ok () => return .done
      | .error fault => return .storeFault fault
  | .prepare label =>
    withHolder label fun _ => do
      match ← onSite (Site.onBackend Backend.prepare) with
      | .ok () => return .done
      | .error fault => return .storeFault fault
  | .describe label =>
    withHolder label fun holder => do
      let backend := (← get).site.backend
      return .store backend.word backend.strategy holder.identity
  | .advance store timer length => do
    if store then
      modify fun s => { s with site := { s.site with clock := s.site.clock.add length } }
    if timer then moveTimer length
    return .time (← get).site.clock
  | .setClock moment => do
    modify fun s => { s with site := { s.site with clock := moment } }
    return .time moment
  | .planFault label kind times fault =>
    withHolder label fun _ => do
      modify fun s => { s with site := s.site.plan label kind times fault }
      return .done
  | .remove name => return .truth (← onSite (Site.onBackend (removeRecord name)))
  | .intrude what => do
    onSite (Site.onBackend fun backend => ((), what.put backend))
    return .done
  | .removeDirectory which => return .truth (← onSite (Site.onBackend which.remove))
  | .listFiles => return .files (recordFiles (← get).site.backend)

/-- Runs a task under a lock. -/
def executeAs {α : Type} (provider : String) (request : Request) (stack : LockStack Nat)
    (task : LockStack Nat → Running α) (answer : Option α → Answer) : Running Answer :=
  withProvider provider fun _ => request.checked fun config => do
    match ← State.locking.execute provider config stack task with
    | .error e => return .lockError e
    | .ok (.executed result) => return answer (some result)
    | .ok .skipped => return answer none

mutual

/-- Runs a step to its observation. -/
def Step.run (stack : LockStack Nat) : Step → Running Observation
  | .act opening action => do
    opening.begin
    observe (← action.run stack)
  | .execute opening provider request task => do
    opening.begin
    let answer ← executeAs provider request stack (fun stack => do
      let entered ← observe .nothing
      return (entered, ← runSteps stack task)) .task
    observe answer

/-- Runs steps, one after the other. -/
def runSteps (stack : LockStack Nat) : List Step → Running (List Observation)
  | [] => return []
  | step :: rest => do
    let seen ← step.run stack
    return seen :: (← runSteps stack rest)

end

end Simulation

end TaskLease
