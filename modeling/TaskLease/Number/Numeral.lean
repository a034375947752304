import TaskLease.Number.Binary64
import TaskLease.Text.Decimal

/-!
# Reading numbers

The texts that stand for numbers where a text may stand for one: an integer is a sign and digits, and a
double precision number has a point and an exponent besides, or is one of the words for infinity and for
what is no number. Nothing may stand around them.
-/

namespace TaskLease

namespace Numeral

/-- The natural number that some digits stand for. There has to be one digit at least. -/
def natural? (cs : List Char) : Option Nat :=
  if cs.isEmpty || !cs.all Char.isDigit then none else some (Text.value cs)

/-- The sign that a text begins with, if it has one, and the rest. -/
def takeSign : List Char → Bool × List Char
  | '-' :: cs => (true, cs)
  | '+' :: cs => (false, cs)
  | cs => (false, cs)

/-- The integer that a text stands for. -/
def integer? (cs : List Char) : Option Int :=
  let (negative, rest) := takeSign cs
  (natural? rest).map fun n => if negative then -(n : Int) else n

/-- The exponent at the end of a number; zero if there is none. -/
def exponent? : List Char → Option Int
  | [] => some 0
  | c :: cs => if c = 'e' ∨ c = 'E' then integer? cs else none

/-- The number that digits with a point and an exponent stand for. -/
def decimal? (negative : Bool) (cs : List Char) : Option Binary64 :=
  let whole := cs.takeWhile Char.isDigit
  let rest := cs.dropWhile Char.isDigit
  let (decimals, rest) := match rest with
    | '.' :: cs => (cs.takeWhile Char.isDigit, cs.dropWhile Char.isDigit)
    | rest => ([], rest)
  if whole.isEmpty && decimals.isEmpty then none
  else
    (exponent? rest).map fun exponent =>
      .ofDecimal negative (Text.value (whole ++ decimals)) (exponent - decimals.length)

/-- The double precision number that a text stands for. -/
def double? (cs : List Char) : Option Binary64 :=
  let (negative, rest) := takeSign cs
  let word := String.ofList (rest.map Char.toLower)
  if word = "inf" ∨ word = "infinity" then some (.infinite negative)
  else if word = "nan" then some .nan
  else decimal? negative rest

end Numeral

end TaskLease
