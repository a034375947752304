/-!
# Decimal numerals

Numbers are written with the digits of base ten and no leading zero; fields of fixed width are filled
up with zeros. A reader takes as many digits as it is allowed to, and `value` says what they mean.
-/

namespace TaskLease.Text

/-- The decimal numeral of a number, without leading zeros. -/
def numeral (n : Nat) : List Char := Nat.toDigits 10 n

/-- The decimal numeral of a number, filled up with zeros to at least `width` characters. -/
def numeralOfWidth (width n : Nat) : List Char := (numeral n).leftpad width '0'

/-- The decimal numeral of an integer, with a sign only where it is negative. -/
def signedNumeral (n : Int) : List Char :=
  if n < 0 then '-' :: numeral n.natAbs else numeral n.natAbs

/-- The number that a list of digits stands for. -/
def value (digits : List Char) : Nat := Nat.ofDigitChars 10 digits 0

/-- The digits a text starts with, at most `limit` of them, and the rest. -/
def takeDigits : (limit : Nat) → List Char → List Char × List Char
  | 0, cs => ([], cs)
  | _ + 1, [] => ([], [])
  | limit + 1, c :: cs =>
    if c.isDigit then ((takeDigits limit cs).map (c :: ·) id) else ([], c :: cs)

/-- The number a text starts with, read from at least one and at most `limit` digits. -/
def readNumber (limit : Nat) (cs : List Char) : Option (Nat × List Char) :=
  match takeDigits limit cs with
  | ([], _) => none
  | (digits, rest) => some (value digits, rest)

theorem value_numeral (n : Nat) : value (numeral n) = n :=
  Nat.ofDigitChars_toDigits (by decide) (by decide)

/-- Nothing is lost when digits are taken off a text. -/
theorem takeDigits_append (limit : Nat) (cs : List Char) :
    (takeDigits limit cs).1 ++ (takeDigits limit cs).2 = cs := by
  induction limit generalizing cs with
  | zero => rfl
  | succ limit ih =>
    cases cs with
    | nil => rfl
    | cons c cs =>
      by_cases h : c.isDigit = true <;> simp [takeDigits, h, ih]

end TaskLease.Text
