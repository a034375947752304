import TaskLease.Time.Calendar
import TaskLease.Time.Duration

/-!
# Instants

An instant is a point on the UTC time line: whole seconds since 1970-01-01T00:00:00Z and nanoseconds
into that second. The nanoseconds of the last second of a minute may run to two seconds, which is how
a leap second is told apart from its neighbours.

The range is that of the years -262143 to 262142. Adding a duration saturates at the last instant of
that range, so no sum fails and no sum wraps.
-/

namespace TaskLease

/-- A point in time, between the first second of year -262143 and the end of year 262142. -/
structure Instant where
  /-- Whole seconds since 1970-01-01T00:00:00Z. -/
  secs : Int
  /-- Nanoseconds into the second; a second or more while a leap second runs. -/
  nanos : Nat
  minSecs_le : -8334601228800 ≤ secs
  le_maxSecs : secs ≤ 8210266876799
  nanos_lt : nanos < 2000000000
  secs_of_leap : 1000000000 ≤ nanos → secs % 60 = 59
deriving DecidableEq, Repr

namespace Instant

/-- The instant with the given seconds and nanoseconds, if there is one. -/
def mk? (secs : Int) (nanos : Nat) : Option Instant :=
  if h : (-8334601228800 ≤ secs ∧ secs ≤ 8210266876799) ∧ nanos < 2000000000 ∧
      (1000000000 ≤ nanos → secs % 60 = 59) then
    some ⟨secs, nanos, h.1.1, h.1.2, h.2.1, h.2.2⟩
  else none

/-- 1970-01-01T00:00:00Z. -/
def epoch : Instant := ⟨0, 0, by decide, by decide, by decide, by decide⟩

/-- The last instant outside a leap second. -/
def max : Instant := ⟨8210266876799, 999999999, by decide, by decide, by decide, by decide⟩

instance : Inhabited Instant := ⟨epoch⟩

instance : LE Instant := ⟨fun a b => a.secs < b.secs ∨ (a.secs = b.secs ∧ a.nanos ≤ b.nanos)⟩

instance : LT Instant := ⟨fun a b => a.secs < b.secs ∨ (a.secs = b.secs ∧ a.nanos < b.nanos)⟩

theorem le_def {a b : Instant} : a ≤ b ↔ a.secs < b.secs ∨ (a.secs = b.secs ∧ a.nanos ≤ b.nanos) :=
  Iff.rfl

theorem lt_def {a b : Instant} : a < b ↔ a.secs < b.secs ∨ (a.secs = b.secs ∧ a.nanos < b.nanos) :=
  Iff.rfl

instance (a b : Instant) : Decidable (a ≤ b) := decidable_of_iff _ le_def.symm

instance (a b : Instant) : Decidable (a < b) := decidable_of_iff _ lt_def.symm

/-- The later of two instants. -/
def later (a b : Instant) : Instant := if a ≤ b then b else a

/-- The instant a number of nanoseconds after the beginning of a second, at most `max`. -/
def plusNanos (secs : Int) (nanos : Nat) (h : -8334601228800 ≤ secs) : Instant :=
  if hs : secs + (nanos / 1000000000 : Nat) ≤ 8210266876799 then
    ⟨secs + (nanos / 1000000000 : Nat), nanos % 1000000000, by omega, hs, by omega, by omega⟩
  else max

/-- The instant a duration later, at most `max`. A leap second is left only by a step that reaches
its end; from then on it counts for nothing. -/
def add (t : Instant) (d : Duration) : Instant :=
  if h : 1000000000 ≤ t.nanos ∧ t.nanos + d.nanos < 2000000000 ∧ d.nanos < 1000000000 then
    ⟨t.secs, t.nanos + d.nanos, t.minSecs_le, t.le_maxSecs, h.2.1, fun _ => t.secs_of_leap h.1⟩
  else plusNanos t.secs (t.nanos % 1000000000 + d.nanos) t.minSecs_le

/-- The whole milliseconds since 1970-01-01T00:00:00Z, rounded down. -/
def epochMillis (t : Instant) : Int := t.secs * 1000 + (t.nanos / 1000000 : Nat)

/-- The instant a number of milliseconds after 1970-01-01T00:00:00Z, if there is one. -/
def ofEpochMillis? (millis : Int) : Option Instant :=
  mk? (millis / 1000) ((millis % 1000).toNat * 1000000)

/-- The instant a number of microseconds after 1970-01-01T00:00:00Z, if there is one. -/
def ofEpochMicros? (micros : Int) : Option Instant :=
  mk? (micros / 1000000) ((micros % 1000000).toNat * 1000)

/-- Whether an instant lies in a leap second. -/
def isLeap (t : Instant) : Bool := 1000000000 ≤ t.nanos

/-- The seconds of an instant's day before it. -/
def secondOfDay (t : Instant) : Int := t.secs % 86400

/-- The leap second that counts between two instants, with a sign: one that the earlier time of day lies in.
What day the times belong to makes no difference. -/
def leapBetween (a b : Instant) : Int :=
  if a.secondOfDay < b.secondOfDay && a.isLeap then 1
  else if b.secondOfDay < a.secondOfDay && b.isLeap then -1
  else 0

/-- The whole seconds from one instant to another, rounded toward zero. -/
def wholeSecondsTo (a b : Instant) : Int :=
  ((b.secs - a.secs + leapBetween a b) * 1000000000 + ((b.nanos : Int) - a.nanos)).tdiv 1000000000

end Instant

end TaskLease
