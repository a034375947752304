import TaskLease.Text.Decimal

/-!
# Durations

A duration is a number of nanoseconds. Its text has the largest unit of which the duration holds at
least one, and as many decimals as are needed to be exact.
-/

namespace TaskLease

/-- A length of time, in whole nanoseconds. -/
structure Duration where
  /-- The number of nanoseconds. -/
  nanos : Nat
deriving DecidableEq, Repr

namespace Duration

/-- The nanoseconds of one second. -/
def nanosPerSecond : Nat := 1000000000

/-- No time at all. -/
def zero : Duration := ⟨0⟩

instance : Inhabited Duration := ⟨zero⟩

/-- The duration of some whole seconds. -/
def ofSeconds (seconds : Nat) : Duration := ⟨seconds * nanosPerSecond⟩

/-- The duration of some seconds and some nanoseconds. -/
def ofParts (seconds nanos : Nat) : Duration := ⟨seconds * nanosPerSecond + nanos⟩

/-- The whole seconds of a duration. -/
def seconds (d : Duration) : Nat := d.nanos / nanosPerSecond

/-- The nanoseconds of a duration beyond its whole seconds. -/
def subsecNanos (d : Duration) : Nat := d.nanos % nanosPerSecond

/-- The whole milliseconds of a duration. -/
def millis (d : Duration) : Nat := d.nanos / 1000000

/-- The whole microseconds of a duration. -/
def micros (d : Duration) : Nat := d.nanos / 1000

/-- Half of a duration, rounded down to a nanosecond. -/
def half (d : Duration) : Duration := ⟨d.nanos / 2⟩

/-- Whether a duration is no time at all. -/
def isZero (d : Duration) : Bool := d.nanos == 0

instance : LE Duration := ⟨fun a b => a.nanos ≤ b.nanos⟩

instance : LT Duration := ⟨fun a b => a.nanos < b.nanos⟩

instance (a b : Duration) : Decidable (a ≤ b) := inferInstanceAs (Decidable (a.nanos ≤ b.nanos))

instance (a b : Duration) : Decidable (a < b) := inferInstanceAs (Decidable (a.nanos < b.nanos))

instance : Add Duration := ⟨fun a b => ⟨a.nanos + b.nanos⟩⟩

/-- What is left of a duration, nothing where more is taken off than there is. -/
instance : Sub Duration := ⟨fun a b => ⟨a.nanos - b.nanos⟩⟩

theorem le_def {a b : Duration} : a ≤ b ↔ a.nanos ≤ b.nanos := Iff.rfl

theorem lt_def {a b : Duration} : a < b ↔ a.nanos < b.nanos := Iff.rfl

@[simp] theorem nanos_add (a b : Duration) : (a + b).nanos = a.nanos + b.nanos := rfl

@[simp] theorem nanos_sub (a b : Duration) : (a - b).nanos = a.nanos - b.nanos := rfl

/-- The text without the zeros at its end. -/
def dropTrailingZeros (cs : List Char) : List Char :=
  (cs.reverse.dropWhile (· == '0')).reverse

/-- A duration in units of ten to the `places` nanoseconds, exact to the last decimal. -/
def inUnit (places : Nat) (symbol : String) (d : Duration) : String :=
  let whole := d.nanos / Nat.pow 10 places
  let decimals := dropTrailingZeros (Text.numeralOfWidth places (d.nanos % Nat.pow 10 places))
  let fraction := if decimals.isEmpty then [] else '.' :: decimals
  String.ofList (Text.numeral whole ++ fraction) ++ symbol

/-- The text of a duration, such as `1.5s`, `250ms` or `0ns`. -/
def describe (d : Duration) : String :=
  if d.nanos ≥ 1000000000 then d.inUnit 9 "s"
  else if d.nanos ≥ 1000000 then d.inUnit 6 "ms"
  else if d.nanos ≥ 1000 then d.inUnit 3 "µs"
  else d.inUnit 0 "ns"

end Duration

end TaskLease
