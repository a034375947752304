import TaskLease.Proofs.Lease.RecordStores
import TaskLease.Proofs.Provider.Acquisition
import TaskLease.Proofs.Provider.Calls

/-!
# Locks that are kept alive

A vigil is the life of one lock that is kept alive: its timer rings now and then, and in between time passes and
other holders do what they like to the store. The clock of the store and the timer that renewals go by are two
clocks; they advance together.

`ring_expired` and `ring_extends` say what a ring does, with the store's reply as a parameter.
-/

namespace TaskLease

/-- Who keeps a lock alive, and on which store. -/
structure Keeper where
  store : RecordStore
  strategy : AcquireStrategy
  identity : String

/-- A lock that is kept alive, with all that its renewals act on. -/
structure Vigil (σ : Type) where
  stage : Stage σ
  clock : Instant
  timer : Duration
  handle : Handle
  provider : Provider
  /-- When the timer rang last, or else when the lock was acquired. -/
  since : Instant

/-- What happens next. -/
inductive Vigil.Turn where
  | pass (time : Duration)
  /-- The timer rings. When it does is up to whoever schedules it. -/
  | ring
  /-- Somebody performs an operation on the store. -/
  | perform (holder : String) (strategy : AcquireStrategy) (op : Operation) (config : LockConfig)
deriving DecidableEq, Repr

namespace Keeper

variable (k : Keeper)

/-- The accessor that renewals go through at an instant. -/
def accessor (now : Instant) : Accessor k.store.State := k.store.accessor k.strategy k.identity now

/-- What the timer does when it rings. Once renewals have come to an end it never rings. -/
def ring (v : Vigil k.store.State) : Vigil k.store.State :=
  match v.handle.due? with
  | none => v
  | some due =>
    let reply := v.handle.ring (k.accessor v.clock) due v.timer v.provider v.stage
    { v with stage := reply.2, handle := reply.1.1, provider := reply.1.2, since := v.clock }

/-- The calls that are made when the timer rings. -/
def calls (v : Vigil k.store.State) : List Accessor.Call :=
  match v.handle.due? with
  | none => []
  | some due => ((k.accessor v.clock).observe (v.handle.ring · due v.timer v.provider) v.stage).1.2

/-- One turn. -/
def turn (v : Vigil k.store.State) : Vigil.Turn → Vigil k.store.State
  | .pass time => { v with clock := v.clock.add time, timer := v.timer + time }
  | .ring => k.ring v
  | .perform holder strategy op config =>
    let access : Access := { holder, config, now := v.clock, strategy, op }
    { v with stage := { v.stage with store := (k.store.perform access v.stage.store).2 } }

/-- The vigil after some turns. -/
def run (turns : List Vigil.Turn) (v : Vigil k.store.State) : Vigil k.store.State := turns.foldl k.turn v

/-- The vigil that begins with an acquisition, if the lock is acquired. -/
def start (minimum : Duration) (registry : Registry) (config : LockConfig) (now : Instant) (timer : Duration)
    (stage : Stage k.store.State) : Option (Vigil k.store.State) :=
  match (Provider.keepingAlive minimum (.plain registry)).tryLock (k.accessor now) timer config stage with
  | ((.ok (some handle), provider), stage) => some { stage, clock := now, timer, handle, provider, since := now }
  | _ => none

variable {k} {v : Vigil k.store.State}

/-- A vigil begins with a lease, and with a timer that is set for the first renewal. -/
theorem start_spec {minimum : Duration} {registry : Registry} {config : LockConfig} {now : Instant}
    {timer : Duration} {stage : Stage k.store.State}
    (started : k.start minimum registry config now timer stage = some v) :
    let attempt := acquire (k.accessor now) config registry stage.store
    attempt.1 = .ok true ∧ Renewal.check minimum config = .ok () ∧
      ∃ events provider, v = ⟨⟨attempt.2.2, events⟩, now, timer,
        .keptAlive (.start config timer) (.lease { config }), provider, now⟩ := by
  unfold start at started
  cases accepted : Renewal.check minimum config with
  | error e =>
    simp only [Provider.tryLock, accepted] at started
    cases started
  | ok =>
    simp only [Provider.tryLock, accepted, bind, StateT.bind, Provider.tryPlain] at started
    revert started
    rcases acquire (k.accessor now) config registry stage.store with ⟨fault | _ | _, registry', s⟩
    · intro started
      cases started
    · intro started
      cases started
    · intro started
      exact ⟨rfl, rfl, _, _, (Option.some.inj started).symm⟩

theorem ring_of_due {due : Duration} (rings : v.handle.due? = some due) :
    k.ring v =
      (let reply := v.handle.ring (k.accessor v.clock) due v.timer v.provider v.stage
      { v with stage := reply.2, handle := reply.1.1, provider := reply.1.2, since := v.clock }) := by
  rw [ring, rings]

/-- A ring takes no time. -/
@[simp] theorem ring_clock (v : Vigil k.store.State) : (k.ring v).clock = v.clock := by
  unfold ring
  split <;> rfl

@[simp] theorem ring_timer (v : Vigil k.store.State) : (k.ring v).timer = v.timer := by
  unfold ring
  split <;> rfl

theorem ring_since {due : Duration} (rings : v.handle.due? = some due) : (k.ring v).since = v.clock := by
  rw [ring_of_due rings]

theorem calls_of_due {due : Duration} (rings : v.handle.due? = some due) :
    k.calls v =
      (v.handle.ring (k.accessor v.clock).recording due v.timer v.provider
        ⟨(v.stage.store, []), v.stage.events⟩).2.store.2 := by
  rw [calls, rings]
  rfl

/-- Once renewals have come to an end, that stays so, and the timer does nothing any more. -/
theorem run_ended (turns : List Vigil.Turn) (ended : v.handle.due? = none) :
    let last := k.run turns v
    last.handle.due? = none ∧ k.ring last = last ∧ k.calls last = [] := by
  induction turns generalizing v with
  | nil => exact ⟨ended, by rw [run, List.foldl_nil, ring, ended], by rw [run, List.foldl_nil, calls, ended]⟩
  | cons t rest ih =>
    apply ih
    cases t with
    | pass | perform => exact ended
    | ring =>
      rw [turn, ring, ended]
      exact ended

end Keeper

/-! ## What a ring does -/

section

variable {σ : Type} (accessor : Accessor σ) {due now : Duration} {r : Renewal} {l : Lease} (p : Provider)
  (stage : Stage σ)

theorem ring_lease (due_now : r.due = some due) :
    let reply := Handle.renew accessor due now r (.lease l) p.inner stage
    (Handle.keptAlive r (.lease l)).ring accessor due now p stage =
      ((.keptAlive reply.1.1 reply.1.2.1, p.around reply.1.2.2), reply.2) := by
  have idle : ¬ (Handle.lease l).due? = some due := by simp [Handle.due?]
  rw [Handle.ring, if_neg idle, if_pos due_now]
  rfl

theorem tick_config (r : Renewal) (due now : Duration) : (r.tick due now).2.config = r.config := by
  unfold Renewal.tick
  split
  · rfl
  · split <;> rfl

/-- A timer that rings in time calls for an extension, and is to ring again. -/
theorem tick_in_time (due : Duration) (active : r.active = true) (in_time : ¬ r.expiry < now) :
    r.tick due now =
      (.extend (r.remaining - r.period),
        { r with
          remaining := r.remaining - r.period
          expiry := Timer.deadline now r.config.atMost
          due := some (Timer.next due now r.period) }) := by
  simp [Renewal.tick, active, in_time]

/-- A lock that the timer finds expired is given up. -/
theorem ring_expired (due_now : r.due = some due) (active : r.active = true) (expired : r.expiry < now) :
    let reply := (Handle.keptAlive r (.lease l)).ring accessor due now p stage
    reply.1.1 = .keptAlive r.stop (.lease l) ∧ reply.2.store = stage.store := by
  have gives_up : r.tick due now = (.giveUp, r.stop) := by simp [Renewal.tick, active, expired]
  rw [ring_lease accessor p stage due_now, Handle.renew, gives_up]
  exact ⟨rfl, rfl⟩

/-- A lock that the timer finds in time is extended. Only if that succeeds do renewals go on. -/
theorem ring_extends {extended : LockConfig} (due_now : r.due = some due) (active : r.active = true)
    (in_time : ¬ r.expiry < now) (held : l.state = .held)
    (allowed : l.config.withDurations r.config.atMost (r.remaining - r.period) = .ok extended) :
    let ring := (Handle.keptAlive r (.lease l)).ring accessor due now p stage
    let reply := accessor.perform .extend extended stage.store
    let next := (r.tick due now).2
    ring.1.1 =
        (match reply.1 with
        | .ok true => .keptAlive next (.lease { l with config := extended })
        | .ok false => .keptAlive next.stop (.lease { l with state := .lost })
        | .error _ => .keptAlive next.stop (.lease l)) ∧
      ring.2.store = reply.2 := by
  have goes_on : r.tick due now = (.extend (r.remaining - r.period), (r.tick due now).2) := by
    rw [tick_in_time due active in_time]
  have same : (r.tick due now).2.config = r.config := tick_config ..
  obtain ⟨answered, stored⟩ := Lease.extend_held accessor stage held allowed
  rw [ring_lease accessor p stage due_now, Handle.renew, goes_on]
  simp only [Handle.extend, bind, StateT.bind, same]
  revert answered stored
  rcases l.extend accessor r.config.atMost (r.remaining - r.period) stage with ⟨⟨answer, l'⟩, stage'⟩
  rcases (accessor.perform .extend extended stage.store).1 with fault | _ | _
  · rintro ⟨⟩ stored
    exact ⟨rfl, stored⟩
  · rintro ⟨⟩ stored
    exact ⟨rfl, stored⟩
  · rintro ⟨⟩ stored
    exact ⟨rfl, stored⟩

end

namespace Keeper

variable {k : Keeper} {v : Vigil k.store.State} {r : Renewal} {l : Lease} {due : Duration}

theorem due_of_keptAlive (handle : v.handle = .keptAlive r (.lease l)) (due_now : r.due = some due) :
    v.handle.due? = some due := by
  rw [handle, Handle.due?, due_now]
  rfl

/-- A ring after the handle's deadline gives the lock up without a call. -/
theorem ring_late (handle : v.handle = .keptAlive r (.lease l)) (due_now : r.due = some due)
    (active : r.active = true) (expired : r.expiry < v.timer) :
    k.calls v = [] ∧ (k.ring v).stage.store = v.stage.store ∧
      (k.ring v).handle = .keptAlive r.stop (.lease l) := by
  have rings := due_of_keptAlive handle due_now
  obtain ⟨given_up, stored⟩ := ring_expired (l := l) (k.accessor v.clock) v.provider v.stage due_now active expired
  obtain ⟨-, recorded⟩ := ring_expired (l := l) (k.accessor v.clock).recording v.provider
    ⟨(v.stage.store, []), v.stage.events⟩ due_now active expired
  rw [calls_of_due rings, ring_of_due rings, handle, recorded]
  exact ⟨rfl, stored, given_up⟩

/-- A ring before the handle's deadline is one extension. What becomes of the handle is up to the store. -/
theorem ring_once {extended : LockConfig} (handle : v.handle = .keptAlive r (.lease l)) (due_now : r.due = some due)
    (active : r.active = true) (in_time : ¬ r.expiry < v.timer) (held : l.state = .held)
    (allowed : l.config.withDurations r.config.atMost (r.remaining - r.period) = .ok extended) :
    let next := (r.tick due v.timer).2
    let reply := k.store.perform ⟨⟨k.identity, extended, v.clock⟩, k.strategy, .extend⟩ v.stage.store
    k.calls v = [⟨.extend, extended, reply.1⟩] ∧ (k.ring v).stage.store = reply.2 ∧
      (k.ring v).handle =
        (match reply.1 with
        | .ok true => .keptAlive next (.lease { l with config := extended })
        | .ok false => .keptAlive next.stop (.lease { l with state := .lost })
        | .error _ => .keptAlive next.stop (.lease l)) := by
  have rings := due_of_keptAlive handle due_now
  obtain ⟨becomes, stored⟩ := ring_extends (k.accessor v.clock) v.provider v.stage due_now active in_time held allowed
  obtain ⟨-, recorded⟩ := ring_extends (k.accessor v.clock).recording v.provider ⟨(v.stage.store, []), v.stage.events⟩
    due_now active in_time held allowed
  refine ⟨?_, ?_, ?_⟩
  · rw [calls_of_due rings, handle, recorded]
    rfl
  · rw [ring_of_due rings, handle]
    exact stored
  · rw [ring_of_due rings, handle]
    exact becomes

end Keeper

end TaskLease
