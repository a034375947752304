import TaskLease.Text.Blank
import TaskLease.Text.Decimal
import TaskLease.Time.Instant

/-!
# Timestamps

The text of an instant is a date, a `T`, a time of day and a `Z`. Fractions of a second have as many
digits as they need, in groups of three, and a leap second is the second 60.

The reader takes more than the writer makes: blanks around the separators, numbers of fewer digits, a
blank or a small `t` between date and time, any number of decimals, and any offset from UTC, which is
then taken off. An offset is required.
-/

namespace TaskLease

namespace Timestamp

/-- The year as written: four digits, or a sign and at least four digits. -/
def yearText (year : Int) : List Char :=
  if 0 ≤ year ∧ year ≤ 9999 then Text.numeralOfWidth 4 year.natAbs
  else (if year < 0 then '-' else '+') :: Text.numeralOfWidth 4 year.natAbs

/-- The decimals of a second, in the fewest groups of three digits that are exact. -/
def fractionText (nanos : Nat) : List Char :=
  if nanos = 0 then []
  else if nanos % 1000000 = 0 then '.' :: Text.numeralOfWidth 3 (nanos / 1000000)
  else if nanos % 1000 = 0 then '.' :: Text.numeralOfWidth 6 (nanos / 1000)
  else '.' :: Text.numeralOfWidth 9 nanos

/-- The characters of an instant's text. -/
def characters (t : Instant) : List Char :=
  let date := Date.ofDay (t.secs / 86400)
  let second := (t.secs % 86400).toNat
  yearText date.year ++ '-' :: Text.numeralOfWidth 2 date.month
    ++ '-' :: Text.numeralOfWidth 2 date.day
    ++ 'T' :: Text.numeralOfWidth 2 (second / 3600)
    ++ ':' :: Text.numeralOfWidth 2 (second / 60 % 60)
    ++ ':' :: Text.numeralOfWidth 2 (second % 60 + t.nanos / 1000000000)
    ++ fractionText (t.nanos % 1000000000) ++ ['Z']

/-- The text of an instant. -/
def write (t : Instant) : String := String.ofList (characters t)

/-- Takes one given character off a text. -/
def expect (wanted : Char) : List Char → Option (List Char)
  | c :: rest => if c = wanted then some rest else none
  | [] => none

/-- Blanks, then a number of one or two digits. -/
def readField (cs : List Char) : Option (Nat × List Char) :=
  Text.readNumber 2 (Text.skipBlanks cs)

/-- Blanks, then a year: at most four digits, or a sign and any number of digits. -/
def readYear (cs : List Char) : Option (Int × List Char) :=
  match Text.skipBlanks cs with
  | '-' :: rest => (Text.readNumber rest.length rest).map fun r => (-(r.1 : Int), r.2)
  | '+' :: rest => (Text.readNumber rest.length rest).map fun r => ((r.1 : Int), r.2)
  | rest => (Text.readNumber 4 rest).map fun r => ((r.1 : Int), r.2)

/-- A separator, perhaps after blanks, and the number after it. -/
def readNext (separator : Char) (cs : List Char) : Option (Nat × List Char) := do
  readField (← expect separator (Text.skipBlanks cs))

/-- The nanoseconds of a fraction of a second, if there is one. Digits beyond the ninth count for
nothing. -/
def readFraction : List Char → Option (Nat × List Char)
  | '.' :: rest =>
    match Text.takeDigits 9 rest with
    | ([], _) => none
    | (digits, rest) =>
      some (Text.value digits * Nat.pow 10 (9 - digits.length), rest.dropWhile Char.isDigit)
  | cs => some (0, cs)

/-- A number of exactly two digits. -/
def readPair : List Char → Option (Nat × List Char)
  | a :: b :: rest => if a.isDigit && b.isDigit then some (Text.value [a, b], rest) else none
  | _ => none

/-- Hours and minutes of an offset, in seconds. -/
def readOffsetTime (cs : List Char) : Option (Nat × List Char) := do
  let (hours, cs) ← readPair cs
  let (minutes, cs) ← readPair (cs.dropWhile fun c => c == ':' || Text.isBlank c)
  if minutes < 60 ∧ hours < 24 then some (hours * 3600 + minutes * 60, cs) else none

/-- The letters `UTC` in either case. -/
def dropUtc : List Char → Option (List Char)
  | u :: t :: c :: rest =>
    if u.toUpper = 'U' ∧ t.toUpper = 'T' ∧ c.toUpper = 'C' then some rest else none
  | _ => none

/-- An offset from UTC, in seconds: `Z`, `UTC`, or a sign with hours and minutes. -/
def readOffset (cs : List Char) : Option (Int × List Char) :=
  match dropUtc cs with
  | some rest => some (0, rest)
  | none =>
    match cs with
    | 'Z' :: rest | 'z' :: rest => some (0, rest)
    | '+' :: rest => (readOffsetTime rest).map fun r => ((r.1 : Int), r.2)
    | '-' :: rest | '−' :: rest => (readOffsetTime rest).map fun r => (-(r.1 : Int), r.2)
    | _ => none

/-- The day of a date, if the calendar has it and it lies within the years that instants have. -/
def dayOf (year : Int) (month day : Nat) : Option Int :=
  let date : Date := ⟨year, month, day⟩
  if -262143 ≤ year ∧ year ≤ 262142 ∧ date.isValid then some date.toDay else none

/-- The second of the day of a time, and the nanoseconds into that second. The second 60 is a leap
second. -/
def timeOf (hour minute second nanos : Nat) : Option (Nat × Nat) :=
  if hour < 24 ∧ minute < 60 ∧ second ≤ 60 then
    if second = 60 then some (hour * 3600 + minute * 60 + 59, nanos + 1000000000)
    else some (hour * 3600 + minute * 60 + second, nanos)
  else none

/-- The instant that some characters stand for. -/
def readCharacters (cs : List Char) : Option Instant := do
  let (year, cs) ← readYear cs
  let (month, cs) ← readNext '-' cs
  let (day, cs) ← readNext '-' cs
  let cs ← match cs with
    | 'T' :: rest | 't' :: rest | ' ' :: rest => some rest
    | _ => none
  let (hour, cs) ← readField cs
  let (minute, cs) ← readNext ':' cs
  let (second, cs) ← readNext ':' cs
  let (nanos, cs) ← readFraction cs
  let (offset, cs) ← readOffset (Text.skipBlanks cs)
  if Text.skipBlanks cs ≠ [] then none
  let day ← dayOf year month day
  let (second, nanos) ← timeOf hour minute second nanos
  Instant.mk? (day * 86400 + second - offset) nanos

/-- The instant that a text stands for. -/
def read (text : String) : Option Instant := readCharacters text.toList

end Timestamp

end TaskLease
