import TaskLease.Provider.Attempt
import TaskLease.Provider.Lease
import TaskLease.Provider.Renewal
import TaskLease.Provider.Tracker

/-!
# Providers and handles

A provider hands out handles of locks. The plain one acquires on a store; around it there may be layers
that keep locks alive and layers that keep track of them, in any order. A handle has the layers of the
provider that it came from, so an operation on a handle walks both from the outside in, and changes both:
a tracking layer of the provider learns what becomes of its handles.

Renewals happen behind the handle's back, inside its keep-alive layer: only the layers further in take
part in them.
-/

namespace TaskLease

/-- A provider of locks. -/
inductive Provider where
  /-- Acquires locks on a store, and remembers the names whose records exist. -/
  | plain (registry : Registry)
  /-- Keeps the locks of the inner provider alive, if their time is at least the minimum. -/
  | keepingAlive (minimum : Duration) (inner : Provider)
  /-- Keeps track of the locks of the inner provider. -/
  | tracking (tracker : Tracker) (inner : Provider)
deriving DecidableEq, Repr

/-- The handle of a lock that a provider gave out. -/
inductive Handle where
  | lease (lease : Lease)
  | keptAlive (renewal : Renewal) (inner : Handle)
  | tracked (id : Nat) (inner : Handle)
deriving DecidableEq, Repr

namespace Provider

instance : Inhabited Provider := ⟨.plain .empty⟩

/-- The provider inside the outermost layer. -/
def inner : Provider → Provider
  | .plain registry => .plain registry
  | .keepingAlive _ inner => inner
  | .tracking _ inner => inner

/-- The same outermost layer around another provider. -/
def around : Provider → Provider → Provider
  | .plain _, inner => inner
  | .keepingAlive minimum _, inner => .keepingAlive minimum inner
  | .tracking tracker _, inner => .tracking tracker inner

/-- Changes the tracker of the outermost layer, if that is a tracking one. -/
def mapTracker (f : Tracker → Tracker) : Provider → Provider
  | .tracking tracker inner => .tracking (f tracker) inner
  | p => p

/-- The tracker of the outermost tracking layer. -/
def tracker? : Provider → Option Tracker
  | .plain _ => none
  | .keepingAlive _ inner => inner.tracker?
  | .tracking tracker _ => some tracker

/-- Forgets which records exist. -/
def clearCache : Provider → Provider
  | .plain registry => .plain registry.clear
  | .keepingAlive minimum inner => .keepingAlive minimum inner.clearCache
  | .tracking tracker inner => .tracking tracker inner.clearCache

end Provider

namespace Handle

variable {σ : Type}

/-- The configuration that a lock is held with, as far as its handle shows it: a lock that is kept alive
shows the one it was acquired with. -/
def config : Handle → LockConfig
  | .lease l => l.config
  | .keptAlive r _ => r.config
  | .tracked _ inner => inner.config

/-- The name of the lock. -/
def name (h : Handle) : String := h.config.name

/-- Releases the lock. Renewals end, whatever becomes of the release; a tracking layer takes the lock out
only if the release succeeds. -/
def unlock (accessor : Accessor σ) :
    Handle → Provider → Acting σ (Except LockError Unit × Handle × Provider)
  | .lease l, p => do
    let (answer, l) ← l.unlock accessor
    return (answer, .lease l, p)
  | .keptAlive r h, p => do
    let (answer, h, inner) ← h.unlock accessor p.inner
    return (answer, .keptAlive r.stop h, p.around inner)
  | .tracked id h, p => do
    let (answer, h, inner) ← h.unlock accessor p.inner
    let p := p.around inner
    match answer with
    | .ok () => return (answer, .tracked id h, p.mapTracker (·.remove id))
    | .error _ => return (answer, .tracked id h, p)

/-- Renews the lock with new durations. A lock that is kept alive can not be renewed by hand. -/
def extend (accessor : Accessor σ) (atMost atLeast : Duration) :
    Handle → Provider → Acting σ (Except LockError Bool × Handle × Provider)
  | .lease l, p => do
    let (answer, l) ← l.extend accessor atMost atLeast
    return (answer, .lease l, p)
  | .keptAlive r h, p =>
    return (.error (.unsupported "manual extension of a keep-alive lock"), .keptAlive r h, p)
  | .tracked id h, p => do
    let (answer, h, inner) ← h.extend accessor atMost atLeast p.inner
    let p := p.around inner
    match answer with
    | .ok true => return (answer, .tracked id h, p.mapTracker (·.update id h.config))
    | .ok false => return (answer, .tracked id h, p.mapTracker (·.remove id))
    | .error _ => return (answer, .tracked id h, p)

/-- Gives a handle up: its renewals end, it is no longer tracked, and a lock that is still held is
released in the background. -/
def drop (accessor : Accessor σ) : Handle → Provider → Acting σ Provider
  | .lease l, p => do
    l.drop accessor
    return p
  | .keptAlive _ h, p => do
    let inner ← h.drop accessor p.inner
    return p.around inner
  | .tracked id h, p => do
    let inner ← h.drop accessor p.inner
    return (p.around inner).mapTracker (·.remove id)

/-- When a timer of a handle rings next. -/
def due? : Handle → Option Duration
  | .lease _ => none
  | .keptAlive r h =>
    match r.due, h.due? with
    | some a, some b => some (if b ≤ a then b else a)
    | a, none => a
    | none, b => b
  | .tracked _ h => h.due?

/-- How often the timers of a handle can ring by `now`, at most. -/
def ringsBy (now : Duration) : Handle → Nat
  | .lease _ => 0
  | .keptAlive r h =>
    let own := match r.due with
      | none => 0
      | some due => (now - due).nanos / max 1 r.period.nanos + 1
    own + h.ringsBy now
  | .tracked _ h => h.ringsBy now

/-- The timer of one keep-alive layer rings at `now`, having been due at `due`. -/
def renew (accessor : Accessor σ) (due now : Duration) (r : Renewal) (h : Handle) (p : Provider) :
    Acting σ (Renewal × Handle × Provider) := do
  match r.tick due now with
  | (.nothing, r) => return (r, h, p)
  | (.giveUp, r) =>
    tell (.log .expiredBeforeRenewal r.config.name)
    return (r, h, p)
  | (.extend atLeast, r) =>
    let (answer, h, p) ← h.extend accessor r.config.atMost atLeast p
    match answer with
    | .ok true => return (r.answered answer, h, p)
    | .ok false | .error _ =>
      tell (.log .renewalFailed r.config.name)
      return (r.answered answer, h, p)

/-- The timers that were due at `due` ring at `now`; of several layers, one rings: the innermost. -/
def ring (accessor : Accessor σ) (due now : Duration) :
    Handle → Provider → Acting σ (Handle × Provider)
  | .lease l, p => return (.lease l, p)
  | .keptAlive r h, p => do
    if h.due? = some due then
      let (h, inner) ← h.ring accessor due now p.inner
      return (.keptAlive r h, p.around inner)
    else if r.due = some due then
      let (r, h, inner) ← h.renew accessor due now r p.inner
      return (.keptAlive r h, p.around inner)
    else return (.keptAlive r h, p)
  | .tracked id h, p => do
    let (h, inner) ← h.ring accessor due now p.inner
    return (.tracked id h, p.around inner)

end Handle

namespace Provider

variable {σ : Type}

/-- Tries to acquire a lock on the store. -/
def tryPlain (accessor : Accessor σ) (config : LockConfig) (registry : Registry) :
    Acting σ (Except LockError (Option Handle) × Registry) := fun stage =>
  let (answer, registry, store) := acquire accessor config registry stage.store
  let stage := { stage with store }
  match answer with
  | .ok true =>
    ((.ok (some (.lease { config })), registry),
      { stage with events := stage.events ++ [.count .attempts config.name .acquired] })
  | .ok false =>
    ((.ok none, registry),
      { stage with events := stage.events ++ [.count .attempts config.name .rejected] })
  | .error fault =>
    ((.error (.storage fault), registry),
      { stage with events := stage.events ++
          [.count .attempts config.name .error, .log .acquisitionFailed config.name] })

/-- Tries to acquire a lock. There is no handle if somebody else holds it; a failure of the store means
that it was not acquired. `now` is the reading of the timer that renewals go by. -/
def tryLock (accessor : Accessor σ) (now : Duration) (config : LockConfig) :
    Provider → Acting σ (Except LockError (Option Handle) × Provider)
  | .plain registry => do
    let (answer, registry) ← tryPlain accessor config registry
    return (answer, .plain registry)
  | .keepingAlive minimum p => do
    match Renewal.check minimum config with
    | .error e => return (.error e, .keepingAlive minimum p)
    | .ok () =>
      let (answer, p) ← p.tryLock accessor now config
      match answer with
      | .ok (some h) =>
        return (.ok (some (.keptAlive (.start config now) h)), .keepingAlive minimum p)
      | .ok none => return (.ok none, .keepingAlive minimum p)
      | .error e => return (.error e, .keepingAlive minimum p)
  | .tracking tracker p => do
    let (answer, p) ← p.tryLock accessor now config
    match answer with
    | .ok (some h) =>
      let (id, tracker) := tracker.enter h.config
      return (.ok (some (.tracked id h)), .tracking tracker p)
    | .ok none => return (.ok none, .tracking tracker p)
    | .error e => return (.error e, .tracking tracker p)

end Provider

end TaskLease
