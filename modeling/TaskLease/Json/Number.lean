import TaskLease.Number.Binary64
import TaskLease.Text.Decimal

/-!
# Numbers in JSON

A number without a point and without an exponent is an integer, if sixty-four bits can hold it. Every other
number is a double precision one, and it is computed in few steps: the digits that sixty-four bits can hold
make an integer, which is rounded, and then multiplied with or divided by a rounded power of ten. So it is not
always the nearest one. A number that is too big is none.
-/

namespace TaskLease

/-- A number that JSON can say. -/
inductive JsonNumber where
  | integer (value : Int)
  | double (value : Binary64)
deriving DecidableEq, Repr

/-- A number as it is written: the digits before and after the point, and the exponent, if there is one. -/
structure JsonNumeral where
  negative : Bool
  whole : List Char
  decimals : List Char
  exponent : Option Int
deriving DecidableEq, Repr

namespace JsonNumeral

/-- The greatest number that sixty-four bits hold. -/
def maxSignificand : Nat := 0xFFFFFFFFFFFFFFFF

/-- The greatest magnitude of a negative integer that sixty-four bits hold. -/
def maxNegative : Nat := 0x8000000000000000

/-- The greatest power of ten that is a double precision number. -/
def maxPower : Nat := 308

/-- Appends digits to a number as long as sixty-four bits hold it. Returns the digits that are left. -/
def append : (significand : Nat) → List Char → Nat × List Char
  | n, [] => (n, [])
  | n, d :: digits =>
    let next := n * 10 + (d.toNat - '0'.toNat)
    if next ≤ maxSignificand then append next digits else (n, d :: digits)

/-- The double precision number nearest to a power of ten. -/
def power (exponent : Nat) : Binary64 := .ofNat (Nat.pow 10 exponent)

/-- A number times ten to an exponent. If the exponent is too far below zero for one power, there are two
steps. -/
def scale (x : Binary64) (exponent : Int) : Option Binary64 :=
  let size := exponent.natAbs
  if 0 ≤ exponent then
    if size ≤ maxPower then
      match x.mul (power size) with
      | .infinite _ => none
      | product => some product
    else if x = .zero false then some x
    else none
  else if size ≤ maxPower then some (x.div (power size))
  else if size ≤ 2 * maxPower then some ((x.div (power maxPower)).div (power (size - maxPower)))
  else some (.zero false)

/-- The number that is meant, unless it is too big. -/
def number? (n : JsonNumeral) : Option JsonNumber :=
  let (significand, dropped) := append 0 n.whole
  let isInteger := n.decimals.isEmpty && n.exponent.isNone && dropped.isEmpty &&
    (!n.negative || (0 < significand && significand ≤ maxNegative))
  if isInteger then some (.integer (if n.negative then -(significand : Int) else significand))
  else
    let (significand, ignored) := append significand n.decimals
    let shift : Int := dropped.length - (n.decimals.length - ignored.length : Nat)
    (scale (.ofNat significand) (shift + n.exponent.getD 0)).map fun x =>
      .double (if n.negative then x.neg else x)

end JsonNumeral

end TaskLease
