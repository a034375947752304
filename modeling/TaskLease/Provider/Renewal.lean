import TaskLease.Lock.Basic

/-!
# Renewals

A lock that is kept alive is extended halfway through its time, again and again, until it is released,
lost, or found expired. Every renewal carries over what is left of the minimum time, and the schedule is
that of a periodic timer which, when it is more than a moment late, starts anew from where it is.

The timer counts from its own start and is not the clock of the store. `Renewal.tick` says what happens
when the timer rings and `Renewal.answered` what the answer to an extension does; neither knows what it is
that is extended.
-/

namespace TaskLease

namespace Timer

/-- Readings from this one on are beyond the timer's range. -/
def range : Duration := .ofSeconds 0x7FFFFFFFFFFFFFFF

/-- Stands in for a reading beyond the timer's range: thirty years from now. -/
def farFuture : Duration := .ofSeconds (86400 * 365 * 30)

/-- How late a timer may ring and still keep to its schedule. -/
def tolerance : Duration := ⟨5000000⟩

/-- The reading that a duration leads to. -/
def deadline (now length : Duration) : Duration :=
  if now + length < range then now + length else now + farFuture

/-- When a timer rings next, having rung at `now` when it was due at `due`. -/
def next (due now period : Duration) : Duration :=
  if now ≤ due + tolerance then deadline due period else deadline now period

end Timer

/-- A lock's renewals. -/
structure Renewal where
  /-- The configuration that the lock was acquired with. -/
  config : LockConfig
  /-- Whether the lock is still to be renewed. -/
  active : Bool
  /-- What is left of the time that the lock has to stay held. -/
  remaining : Duration
  /-- When the lock expires unless it is renewed, by the timer. -/
  expiry : Duration
  /-- When the timer rings next; never, once the renewals have come to an end. -/
  due : Option Duration
deriving DecidableEq, Repr

namespace Renewal

/-- The time between two renewals. -/
def periodOf (config : LockConfig) : Duration := config.atMost.half

/-- The time between two renewals of a lock. -/
def period (r : Renewal) : Duration := periodOf r.config

/-- Whether a lock can be renewed at all, and at least as far apart as the minimum asks. -/
def check (minimum : Duration) (config : LockConfig) : Except LockError Unit :=
  if config.atMost < minimum then
    .error (.invalidConfiguration (.belowRenewalMinimum minimum config.name config.atMost))
  else if (periodOf config).isZero then .error (.invalidConfiguration (.notRenewable config.name))
  else .ok ()

/-- The renewals of a lock acquired at `now`. -/
def start (config : LockConfig) (now : Duration) : Renewal where
  config
  active := true
  remaining := config.atLeast
  expiry := Timer.deadline now config.atMost
  due := some (Timer.deadline now (periodOf config))

/-- No more renewals. -/
def stop (r : Renewal) : Renewal := { r with active := false, due := none }

/-- What to do when the timer rings. -/
inductive Action where
  /-- Nothing: the lock is no longer to be renewed. -/
  | nothing
  /-- Give up: the lock has expired and may be somebody else's by now. -/
  | giveUp
  /-- Extend the lock, with this minimum time. -/
  | extend (atLeast : Duration)
deriving DecidableEq, Repr

/-- The timer rings at `now`, having been due at `due`. -/
def tick (r : Renewal) (due now : Duration) : Action × Renewal :=
  if !r.active then (.nothing, r.stop)
  else if r.expiry < now then (.giveUp, r.stop)
  else
    let remaining := r.remaining - r.period
    (.extend remaining,
      { r with
        remaining
        expiry := Timer.deadline now r.config.atMost
        due := some (Timer.next due now r.period) })

/-- The extension was answered. Anything but success ends the renewals. -/
def answered (r : Renewal) : Except LockError Bool → Renewal
  | .ok true => r
  | .ok false | .error _ => r.stop

end Renewal

end TaskLease
