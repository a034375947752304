/-!
# The civil calendar

Days are numbered from 1970-01-01 and dates follow the Gregorian rules in both directions, with a
year zero. `Date.ofDay` finds the year from the average length of a year, which is off by at most
one, and the month by walking the lengths of the months.
-/

namespace TaskLease

/-- Whether a year has a 29th of February. -/
def isLeapYear (year : Int) : Bool := year % 4 = 0 ∧ (year % 100 ≠ 0 ∨ year % 400 = 0)

/-- The days from the first day of year 0 to the first day of a year. -/
def daysBeforeYear (year : Int) : Int :=
  365 * year + (year + 3) / 4 - (year + 99) / 100 + (year + 399) / 400

/-- The day number, counted from the first day of year 0, of 1970-01-01. -/
def epochDay : Int := 719528

/-- The lengths of the months of a year. -/
def monthLengths (leap : Bool) : List Nat :=
  [31, if leap then 29 else 28, 31, 30, 31, 30, 31, 31, 30, 31, 30, 31]

/-- A date of the Gregorian calendar. -/
structure Date where
  year : Int
  /-- The month, from 1. -/
  month : Nat
  /-- The day of the month, from 1. -/
  day : Nat
deriving DecidableEq, Repr

/-- The month and the day of the month, both from 1, of the day that comes `days` days after the
first of the first of some months with the given lengths. -/
def splitMonth : (lengths : List Nat) → (days : Nat) → Nat × Nat
  | [], days => (1, days + 1)
  | length :: rest, days =>
    if days < length then (1, days + 1)
    else
      let later := splitMonth rest (days - length)
      (later.1 + 1, later.2)

/-- The year of a day counted from the first day of year 0. -/
def yearOfDay (day : Int) : Int :=
  let guess := 400 * day / 146097
  if daysBeforeYear (guess + 1) ≤ day then guess + 1
  else if daysBeforeYear guess ≤ day then guess
  else guess - 1

namespace Date

/-- Whether the calendar has this date. -/
def isValid (d : Date) : Bool :=
  match (monthLengths (isLeapYear d.year))[d.month - 1]? with
  | some length => 1 ≤ d.month && 1 ≤ d.day && d.day ≤ length
  | none => false

/-- The number of a date's day, counted from 1970-01-01. -/
def toDay (d : Date) : Int :=
  let before : Nat := ((monthLengths (isLeapYear d.year)).take (d.month - 1)).foldl Nat.add 0
  daysBeforeYear d.year + before + d.day - 1 - epochDay

/-- The date of a day counted from 1970-01-01. -/
def ofDay (day : Int) : Date :=
  let day := day + epochDay
  let year := yearOfDay day
  let monthDay := splitMonth (monthLengths (isLeapYear year)) (day - daysBeforeYear year).toNat
  ⟨year, monthDay.1, monthDay.2⟩

end Date

/-- The year of a day holds the day. -/
theorem daysBeforeYear_yearOfDay (day : Int) :
    daysBeforeYear (yearOfDay day) ≤ day ∧ day < daysBeforeYear (yearOfDay day + 1) := by
  unfold yearOfDay
  generalize hg : 400 * day / 146097 = guess
  simp only
  split
  · unfold daysBeforeYear at *
    omega
  · split
    · unfold daysBeforeYear at *
      omega
    · rw [Int.sub_add_cancel]
      unfold daysBeforeYear at *
      omega

end TaskLease
