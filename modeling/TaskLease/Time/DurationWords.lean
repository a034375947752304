import TaskLease.Text.Blank
import TaskLease.Time.Duration

/-!
# Durations in words

Operators write durations as a list of items such as `1h 30m` or `2.5 sec`: a number, perhaps with
decimals, and a unit. Blanks may stand anywhere but inside a unit, and an item may follow a unit
directly, since the next digit ends the unit.

The reader works through the text one character at a time. Its state says which part of an item it
is in; `Progress` holds what the items before have added up to. Both the number and the total are
kept within sixty-four bits, and no item may be rounded.
-/

namespace TaskLease

namespace DurationWords

/-- Why a text is no duration. Positions count bytes. -/
inductive Fault where
  /-- There is no item at all. -/
  | empty
  /-- An item does not begin with a digit. -/
  | numberExpected (position : Nat)
  /-- A character that no part of an item may contain. -/
  | invalidCharacter (position : Nat)
  /-- A number without a unit. -/
  | unitMissing (number : Nat)
  /-- A word that names no unit. -/
  | unknownUnit (word : String)
  /-- A number that does not fit, or one that would have to be rounded. -/
  | unrepresentable
deriving DecidableEq, Repr

/-- The text of a fault. -/
def Fault.message : Fault → String
  | .empty => "value was empty"
  | .numberExpected position => s!"expected number at {position}"
  | .invalidCharacter position => s!"invalid character at {position}"
  | .unitMissing number => s!"time unit needed, for example {number}sec or {number}ms"
  | .unknownUnit word =>
    s!"unknown time unit \"{word}\", supported units: ns, us/µs, ms, sec, min, hours, days, weeks, months, years (and few variations)"
  | .unrepresentable =>
    "number is too large or cannot be represented without a lack of precision (values below 1ns are not supported)"

/-- A unit of time. Units up to milliseconds are counted in nanoseconds, larger ones in seconds. -/
inductive Measure where
  | nanosecond | microsecond | millisecond | second | minute | hour | day | week | month | year
deriving DecidableEq, Repr

/-- The unit that a word names. -/
def Measure.ofWord? : String → Option Measure
  | "nanos" | "nsec" | "ns" => some .nanosecond
  | "usec" | "us" | "µs" => some .microsecond
  | "millis" | "msec" | "ms" => some .millisecond
  | "seconds" | "second" | "secs" | "sec" | "s" => some .second
  | "minutes" | "minute" | "mins" | "min" | "m" => some .minute
  | "hours" | "hour" | "hrs" | "hr" | "h" => some .hour
  | "days" | "day" | "d" => some .day
  | "weeks" | "week" | "wks" | "wk" | "w" => some .week
  | "months" | "month" | "M" => some .month
  | "years" | "year" | "yrs" | "yr" | "y" => some .year
  | _ => none

/-- The seconds of a unit; none for units shorter than a second. -/
def Measure.wholeSeconds : Measure → Option Nat
  | .nanosecond | .microsecond | .millisecond => none
  | .second => some 1
  | .minute => some 60
  | .hour => some 3600
  | .day => some 86400
  | .week => some 604800
  | .month => some 2630016
  | .year => some 31557600

/-- The nanoseconds of a unit, where fractions of it are counted in nanoseconds. -/
def Measure.fineNanos : Measure → Option Nat
  | .nanosecond => some 1
  | .microsecond => some 1000
  | .millisecond => some 1000000
  | .second => some 1000000000
  | .minute => some 60000000000
  | _ => none

/-- The numbers that fit into sixty-four bits. -/
def fits (n : Nat) : Bool := n < 0x10000000000000000

/-- A number that fits, or the fault that it does not. -/
def checked (n : Nat) : Except Fault Nat :=
  if fits n then .ok n else .error .unrepresentable

/-- The total after some more seconds and nanoseconds. -/
def add (total : Duration) (seconds nanos : Nat) : Except Fault Duration := do
  let nanos ← checked (total.subsecNanos + nanos)
  let seconds ← checked (total.seconds + seconds + nanos / Duration.nanosPerSecond)
  return .ofParts seconds (nanos % Duration.nanosPerSecond)

/-- Decimals of a number: `numerator` over `denominator`, a power of ten. -/
structure Fraction where
  numerator : Nat
  denominator : Nat
deriving DecidableEq, Repr

/-- The total after `number` units. -/
def addWhole (total : Duration) (unit : Measure) (number : Nat) : Except Fault Duration := do
  match unit.wholeSeconds with
  | some seconds => add total (← checked (number * seconds)) 0
  | none => add total 0 (← checked (number * (unit.fineNanos.getD 1)))

/-- The total after a fraction of one unit, which has to come out even: in nanoseconds for units up
to a minute, in seconds for longer ones. A nanosecond has no fractions. -/
def addFraction (total : Duration) (unit : Measure) (part : Fraction) : Except Fault Duration := do
  if unit = .nanosecond then throw .unrepresentable
  let scale := unit.fineNanos.getD (unit.wholeSeconds.getD 1)
  let product ← checked (part.numerator * scale)
  if product % part.denominator ≠ 0 then throw .unrepresentable
  let amount := product / part.denominator
  if unit.fineNanos.isSome then add total 0 amount else add total amount 0

/-- The total after one item. -/
def addItem (total : Duration) (number : Nat) (part : Option Fraction) (word : List Char) :
    Except Fault Duration := do
  match Measure.ofWord? (String.ofList word) with
  | none => throw (.unknownUnit (String.ofList word))
  | some unit =>
    let total ← addWhole total unit number
    match part with
    | none => return total
    | some part => addFraction total unit part

/-- The part of an item that the reader is in. -/
inductive State where
  /-- Before an item; `start` is the position right after the item before. -/
  | before (start : Nat)
  /-- In the integer part of a number. -/
  | integer (number : Nat)
  /-- After the point of a number; `resume` is the position after the last digit or blank there, or
  the position of the point if there was none yet. -/
  | decimals (number : Nat) (part : Fraction) (resume : Nat)
  /-- In a unit, whose letters so far stand in reverse. -/
  | unit (number : Nat) (part : Option Fraction) (letters : List Char)
deriving DecidableEq, Repr

/-- The reader's state and what the finished items add up to. -/
structure Progress where
  state : State := .before 0
  total : Duration := .zero
  /-- Whether there has been an item. -/
  any : Bool := false
deriving DecidableEq, Repr

/-- The characters that units are made of. -/
def isUnitLetter (c : Char) : Bool := c.isAlpha || c == 'µ'

/-- The value of a digit. -/
def digit (c : Char) : Nat := c.toNat - '0'.toNat

/-- The next digit of a fraction. -/
def Fraction.push (part : Fraction) (c : Char) : Except Fault Fraction := do
  let denominator ← checked (part.denominator * 10)
  let numerator ← checked (part.numerator * 10 + digit c)
  return ⟨numerator, denominator⟩

/-- Reads one character, which begins at `position`. -/
def step (p : Progress) (position : Nat) (c : Char) : Except Fault Progress :=
  let next := position + c.utf8Size
  match p.state with
  | .before start =>
    if c.isDigit then .ok { p with state := .integer (digit c), any := true }
    else if Text.isBlank c then .ok p
    else .error (.numberExpected start)
  | .integer number =>
    if c.isDigit then do
      let number ← checked (number * 10 + digit c)
      return { p with state := .integer number }
    else if Text.isBlank c then .ok p
    else if isUnitLetter c then .ok { p with state := .unit number none [c] }
    else if c = '.' then .ok { p with state := .decimals number ⟨0, 1⟩ position }
    else .error (.invalidCharacter position)
  | .decimals number part resume =>
    if c.isDigit then do
      let part ← part.push c
      return { p with state := .decimals number part next }
    else if Text.isBlank c then .ok { p with state := .decimals number part next }
    else if isUnitLetter c && part.denominator ≠ 1 then
      .ok { p with state := .unit number (some part) [c] }
    else .error (.invalidCharacter resume)
  | .unit number part letters =>
    if isUnitLetter c then .ok { p with state := .unit number part (c :: letters) }
    else if c.isDigit then do
      let total ← addItem p.total number part letters.reverse
      return { p with state := .integer (digit c), total }
    else if Text.isBlank c then do
      let total ← addItem p.total number part letters.reverse
      return { p with state := .before next, total }
    else .error (.invalidCharacter position)

/-- What the text means once it has ended. -/
def finish (p : Progress) : Except Fault Duration :=
  match p.state with
  | .before _ => if p.any then .ok p.total else .error .empty
  | .integer number => .error (.unitMissing number)
  | .decimals number part resume =>
    if part.denominator = 1 then .error (.invalidCharacter resume) else .error (.unitMissing number)
  | .unit number part letters => addItem p.total number part letters.reverse

/-- Reads the rest of a text, which begins at `position`. -/
def readFrom (p : Progress) (position : Nat) : List Char → Except Fault Duration
  | [] => finish p
  | c :: rest => do readFrom (← step p position c) (position + c.utf8Size) rest

/-- The duration that a text means. A lone `0` needs no unit. -/
def read (text : String) : Except Fault Duration :=
  if text = "0" then .ok .zero else readFrom {} 0 text.toList

end DurationWords

end TaskLease
