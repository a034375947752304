/-!
# Double precision numbers

Numbers with a binary exponent and fifty-three significant bits, computed exactly: every operation is
the exact result, given as a ratio of natural numbers, and one rounding of it to the nearest number, a
tie going to the even one. No floating point unit is involved, so what is computed here can be reasoned
about.
-/

namespace TaskLease

/-- A double precision number. A finite one stands for `mantissa * 2 ^ exponent`, where the mantissa has
fifty-three bits, or fewer at the least exponent. -/
inductive Binary64 where
  | finite (negative : Bool) (mantissa : Nat) (exponent : Int)
  | infinite (negative : Bool)
  | nan
deriving DecidableEq, Repr

namespace Binary64

/-- The least exponent of a finite number. -/
def minExponent : Int := -1074

/-- The greatest exponent of a finite number. -/
def maxExponent : Int := 971

/-- The least mantissa of fifty-three bits, `2 ^ 52`. -/
def leastNormal : Nat := 0x10000000000000

/-- Zero, with a sign. -/
def zero (negative : Bool) : Binary64 := .finite negative 0 minExponent

/-- The ratio of `num * 2 ^ (-exponent)` to `den`, as two natural numbers. -/
def scaled (num den : Nat) (exponent : Int) : Nat × Nat :=
  if exponent < 0 then (num <<< exponent.natAbs, den) else (num, den <<< exponent.natAbs)

/-- A quotient rounded to the nearest natural number, a tie to the even one. -/
def roundQuotient (num den : Nat) : Nat :=
  let q := num / den
  let r := num % den
  if den < 2 * r ∨ (2 * r = den ∧ q % 2 = 1) then q + 1 else q

/-- The exponent at which the quotient of two positive numbers has fifty-three bits, but not below the
least exponent. -/
def exponentOf (num den : Nat) : Int :=
  let guess : Int := (Nat.log2 num : Int) - Nat.log2 den - 52
  let ratio := scaled num den guess
  let exponent := if ratio.1 / ratio.2 < leastNormal then guess - 1 else guess
  if exponent < minExponent then minExponent else exponent

/-- The number nearest to a ratio, with a sign. -/
def ofRatio (negative : Bool) (num den : Nat) : Binary64 :=
  if num = 0 then zero negative
  else
    let exponent := exponentOf num den
    let ratio := scaled num den exponent
    let mantissa := roundQuotient ratio.1 ratio.2
    let number := if mantissa = 2 * leastNormal then (leastNormal, exponent + 1) else (mantissa, exponent)
    if maxExponent < number.2 then .infinite negative else .finite negative number.1 number.2

/-- The number nearest to a natural number. -/
def ofNat (n : Nat) : Binary64 := ofRatio false n 1

/-- The number nearest to an integer. -/
def ofInt (n : Int) : Binary64 := ofRatio (n < 0) n.natAbs 1

/-- The number nearest to `digits * 10 ^ exponent`. Exponents far out of range are settled by the
number of digits, so that no huge power is formed. -/
def ofDecimal (negative : Bool) (digits : Nat) (exponent : Int) : Binary64 :=
  if digits = 0 then zero negative
  else
    let magnitude := exponent + (Nat.toDigits 10 digits).length
    if 310 < magnitude then .infinite negative
    else if magnitude < -330 then zero negative
    else if exponent < 0 then ofRatio negative digits (Nat.pow 10 exponent.natAbs)
    else ofRatio negative (digits * Nat.pow 10 exponent.natAbs) 1

/-- A finite number as an integer over a power of two: the integer, and the exponent of the power. -/
def signed (negative : Bool) (mantissa : Nat) : Int :=
  if negative then -(mantissa : Int) else mantissa

/-- The sum of two numbers. -/
def add : Binary64 → Binary64 → Binary64
  | .finite n₁ m₁ e₁, .finite n₂ m₂ e₂ =>
    let e := if e₁ ≤ e₂ then e₁ else e₂
    let sum := signed n₁ (m₁ <<< (e₁ - e).toNat) + signed n₂ (m₂ <<< (e₂ - e).toNat)
    if sum = 0 then zero (n₁ && n₂)
    else if e < 0 then ofRatio (sum < 0) sum.natAbs (1 <<< e.natAbs)
    else ofRatio (sum < 0) (sum.natAbs <<< e.natAbs) 1
  | .nan, _ | _, .nan => .nan
  | .infinite a, .infinite b => if a = b then .infinite a else .nan
  | .infinite a, _ | _, .infinite a => .infinite a

/-- The opposite number. -/
def neg : Binary64 → Binary64
  | .finite n m e => .finite (!n) m e
  | .infinite n => .infinite (!n)
  | .nan => .nan

/-- The ratio of two natural numbers times a power of two, rounded. -/
def ofScaledRatio (negative : Bool) (num den : Nat) (exponent : Int) : Binary64 :=
  if exponent < 0 then ofRatio negative num (den <<< exponent.natAbs)
  else ofRatio negative (num <<< exponent.natAbs) den

/-- The product of two numbers. -/
def mul : Binary64 → Binary64 → Binary64
  | .finite n₁ m₁ e₁, .finite n₂ m₂ e₂ => ofScaledRatio (n₁ != n₂) (m₁ * m₂) 1 (e₁ + e₂)
  | .nan, _ | _, .nan => .nan
  | .infinite a, .infinite b => .infinite (a != b)
  | .infinite a, .finite b m _ | .finite b m _, .infinite a => if m = 0 then .nan else .infinite (a != b)

/-- The quotient of two numbers. -/
def div : Binary64 → Binary64 → Binary64
  | .finite n₁ m₁ e₁, .finite n₂ m₂ e₂ =>
    if m₂ = 0 then if m₁ = 0 then .nan else .infinite (n₁ != n₂)
    else ofScaledRatio (n₁ != n₂) m₁ m₂ (e₁ - e₂)
  | .nan, _ | _, .nan => .nan
  | .infinite _, .infinite _ => .nan
  | .infinite a, .finite b _ _ => .infinite (a != b)
  | .finite a _ _, .infinite b => zero (a != b)

/-- A finite number divided by a positive natural number. -/
def divNat : Binary64 → Nat → Binary64
  | .finite n m e, d =>
    if e < 0 then ofRatio n m (d <<< e.natAbs) else ofRatio n (m <<< e.natAbs) d
  | x, _ => x

/-- Whether a number is less than another. -/
def lt : Binary64 → Binary64 → Bool
  | .finite n₁ m₁ e₁, .finite n₂ m₂ e₂ =>
    let e := if e₁ ≤ e₂ then e₁ else e₂
    signed n₁ (m₁ <<< (e₁ - e).toNat) < signed n₂ (m₂ <<< (e₂ - e).toNat)
  | .nan, _ | _, .nan => false
  | .infinite a, .infinite b => a && !b
  | .infinite a, .finite .. => a
  | .finite .., .infinite b => !b

/-- Whether two numbers are equal; a zero equals the other zero. -/
def eq (a b : Binary64) : Bool :=
  match a, b with
  | .nan, _ | _, .nan => false
  | a, b => !lt a b && !lt b a

/-- Whether a number is less than or equal to another. -/
def le (a b : Binary64) : Bool := lt a b || eq a b

/-- The integer part of a finite number. -/
def truncate : Binary64 → Int
  | .finite n m e =>
    if e < 0 then signed n (m >>> e.natAbs) else signed n (m <<< e.natAbs)
  | _ => 0

/-- A finite number rounded to the nearest integer, a half away from zero. -/
def roundAway : Binary64 → Int
  | .finite n m e =>
    if e < 0 then signed n ((2 * m + (1 <<< e.natAbs)) >>> (e.natAbs + 1))
    else signed n (m <<< e.natAbs)
  | _ => 0

/-- The bit that a negative number is stored with. -/
def signBit : Nat := 0x8000000000000000

/-- The sixty-four bits that a number is stored in. -/
def bits : Binary64 → Nat
  | .finite n m e =>
    let sign := if n then signBit else 0
    if m < leastNormal then sign + m
    else sign + ((e + 1075).toNat <<< 52) + (m - leastNormal)
  | .infinite n => (if n then signBit else 0) + (2047 <<< 52)
  | .nan => 4095 <<< 51

end Binary64

end TaskLease
