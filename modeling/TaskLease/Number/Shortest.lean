import TaskLease.Number.Binary64
import TaskLease.Text.Decimal

/-!
# The shortest decimal text of a number

A double precision number is written with the fewest digits that read back as that number, of several
such digits the nearest, and without an exponent. For each count of digits only the number's two
neighbours on the decimal grid of that count have to be tried: if any point of the grid reads back, one of
them does.
-/

namespace TaskLease

namespace Binary64

/-- A ratio with the two ends of the interval that rounds to it, over one denominator. -/
structure Neighbourhood where
  low : Nat
  middle : Nat
  high : Nat
  den : Nat
  /-- Whether the ends of the interval round to the number too. -/
  closed : Bool

/-- The numbers around `mantissa * 2 ^ exponent` that round to it. -/
def neighbourhood (mantissa : Nat) (exponent : Int) : Neighbourhood :=
  let below := if mantissa = leastNormal ∧ minExponent < exponent then 1 else 2
  let shift := exponent - 2
  let up := if shift < 0 then 1 else 1 <<< shift.natAbs
  { low := (4 * mantissa - below) * up
    middle := 4 * mantissa * up
    high := (4 * mantissa + 2) * up
    den := if shift < 0 then 1 <<< shift.natAbs else 1
    closed := mantissa % 2 = 0 }

/-- Whether `digits * 10 ^ exponent` rounds to the number. -/
def Neighbourhood.holds (n : Neighbourhood) (digits : Nat) (exponent : Int) : Bool :=
  let (x, scale) :=
    if exponent < 0 then (digits * n.den, Nat.pow 10 exponent.natAbs)
    else (digits * Nat.pow 10 exponent.natAbs * n.den, 1)
  if n.closed then n.low * scale ≤ x && x ≤ n.high * scale
  else n.low * scale < x && x < n.high * scale

/-- How many zeros follow the point of a ratio below one, at most `bound`. -/
def leadingZeros (num den : Nat) : (bound : Nat) → Nat
  | 0 => 0
  | bound + 1 => if num * 10 < den then leadingZeros (num * 10) den bound + 1 else 0

/-- The position of the first digit of a positive ratio: it lies in `[10 ^ (p - 1), 10 ^ p)`. -/
def pointPosition (num den : Nat) : Int :=
  if den ≤ num then (Nat.toDigits 10 (num / den)).length else -(leadingZeros num den 400 : Int)

/-- The digits and the exponent of the neighbour on the grid of `10 ^ exponent` that rounds to the
number, if there is one; of two, the nearer. -/
def Neighbourhood.onGrid (n : Neighbourhood) (exponent : Int) : Option (Nat × Int) :=
  let (num, den) :=
    if exponent < 0 then (n.middle * Nat.pow 10 exponent.natAbs, n.den)
    else (n.middle, n.den * Nat.pow 10 exponent.natAbs)
  let down := num / den
  let nearest := if den ≤ 2 * (num % den) then [down + 1, down] else [down, down + 1]
  (nearest.find? fun digits => n.holds digits exponent).map fun digits => (digits, exponent)

/-- The first of the exponents, from the one for a single digit on, whose grid has a neighbour. -/
def Neighbourhood.search (n : Neighbourhood) (exponent : Int) : (tries : Nat) → Nat × Int
  | 0 => (n.middle, 0)
  | tries + 1 =>
    match n.onGrid exponent with
    | some found => found
    | none => n.search (exponent - 1) tries

/-- The fewest digits that read back as a positive finite number, and their exponent. -/
def shortest (mantissa : Nat) (exponent : Int) : Nat × Int :=
  let n := neighbourhood mantissa exponent
  n.search (pointPosition n.middle n.den - 1) 18

/-- `digits * 10 ^ exponent` in decimal places. -/
def positional (digits : Nat) (exponent : Int) : List Char :=
  if exponent < 0 then
    let places := exponent.natAbs
    let text := Text.numeralOfWidth (places + 1) digits
    let whole := text.take (text.length - places)
    let decimals := ((text.drop (text.length - places)).reverse.dropWhile (· == '0')).reverse
    if decimals.isEmpty then whole else whole ++ '.' :: decimals
  else Text.numeral (digits * Nat.pow 10 exponent.natAbs)

/-- The text of a number. -/
def text : Binary64 → String
  | .nan => "NaN"
  | .infinite negative => if negative then "-inf" else "inf"
  | .finite negative mantissa exponent =>
    let digits :=
      if mantissa = 0 then ['0']
      else
        let (digits, exponent) := shortest mantissa exponent
        positional digits exponent
    String.ofList (if negative then '-' :: digits else digits)

end Binary64

end TaskLease
