import TaskLease.Simulation.Run

/-!
# Setting a simulation up

The holders connect to the store one after the other, each with its own identity. The first one that can
not ends the simulation before its first step, with its error as the whole outcome.
-/

namespace TaskLease

namespace Simulation

/-- A layer around a provider. -/
inductive Layer where
  | tracking
  /-- Keeps locks alive; without a minimum of its own, the default one holds. -/
  | keepAlive (minimum : Option Duration)
deriving DecidableEq, Repr

namespace Layer

/-- The least time that a lock needs to be kept alive, unless said otherwise. -/
def defaultMinimum : Duration := .ofSeconds 30

/-- Puts a layer around a provider. -/
def wrap : Layer → Provider → Provider
  | .tracking, p => .tracking {} p
  | .keepAlive minimum, p => .keepingAlive (minimum.getD defaultMinimum) p

end Layer

/-- A provider that is wanted: the label of its holder, and its layers from the inside out. -/
structure Wanted where
  holder : String
  layers : List Layer := []
deriving DecidableEq, Repr

/-- The provider that is wanted. -/
def Wanted.entry (w : Wanted) : ProviderEntry where
  holder := w.holder
  provider := w.layers.foldl (fun p layer => layer.wrap p) (.plain .empty)

/-- How a simulation begins. -/
structure Setup where
  backend : Backend
  start : Instant
  /-- The identities of the holders, as they are written, which are also their labels. -/
  holders : List String
  /-- The providers by label; one plain provider for each holder, under its label, if there are none. -/
  providers : Option (Table String Wanted)
  replies : Replies := .none
  /-- Whether the servers of stores behind a connection can be reached. -/
  reachable : Bool := true

/-- How a simulation came out. `commands` is what was sent while the holders connected. -/
inductive Outcome where
  /-- A holder could not connect. -/
  | refused (error : LockError) (commands : View)
  | ran (commands : View) (observations : List Observation)

namespace Setup

/-- Connects to the store for one holder. -/
def connect (setup : Setup) (backend : Backend) : Except StoreFault Unit × Backend :=
  match backend with
  | .memory .. | .file .. => backend.connect setup.start
  | .redis .. | .sql .. =>
    if setup.reachable then backend.connect setup.start
    else (.error (.connection "the server can not be reached"), backend)

/-- Gives the holders their identities and connects them. -/
def connectAll (setup : Setup) :
    List String → Table String Holder → Backend → Except LockError (Table String Holder) × Backend
  | [], holders, backend => (.ok holders, backend)
  | label :: rest, holders, backend =>
    match Holder.make label with
    | .error e => (.error e, backend)
    | .ok holder =>
      match setup.connect backend with
      | (.error fault, backend) => (.error (.storage fault), backend)
      | (.ok (), backend) => connectAll setup rest (holders.insert label holder) backend

/-- The providers of a simulation. -/
def entries (setup : Setup) : Table String ProviderEntry :=
  match setup.providers with
  | some wanted => ⟨wanted.entries.map fun e => (e.1, e.2.entry)⟩
  | none => .ofList (setup.holders.map fun label => (label, Wanted.entry { holder := label }))

/-- Sets a simulation up and runs its steps. -/
def run (setup : Setup) (steps : List Step) : Outcome :=
  let (holders, backend) := setup.connectAll setup.holders ∅ (setup.replies.queue setup.backend)
  let (commands, site) := ({ backend, clock := setup.start : Site }).show []
  match holders with
  | .error e => .refused e commands
  | .ok holders =>
    let state : State := { site, holders, providers := setup.entries }
    .ran commands ((runSteps [] steps).run state).1

end Setup

end Simulation

end TaskLease
