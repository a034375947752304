import Mathlib.Algebra.Ring.Nat
import TaskLease.Text.Decimal

/-!
# Numerals are read back

A reader that takes digits off a text gets all of a numeral that stands in front of it, as long as the
numeral is no longer than the reader's limit and what follows does not go on with a digit, or there is
no room for one (`takeDigits_digits`). What it reads is the number that was written (`readNumber_digits`
with `value_numeral` and `value_numeralOfWidth`).
-/

namespace TaskLease.Text

/-- A text of digits alone. -/
def IsDigits (digits : List Char) : Prop := ∀ c ∈ digits, c.isDigit = true

/-- A text that does not begin with a digit. -/
def StopsDigits (cs : List Char) : Prop := ∀ c rest, cs = c :: rest → c.isDigit = false

theorem stopsDigits_nil : StopsDigits [] := by
  intro c rest none
  cases none

theorem stopsDigits_cons {c : Char} {rest : List Char} (other : c.isDigit = false) :
    StopsDigits (c :: rest) := by
  intro c' rest' same
  cases same
  exact other

theorem numeral_isDigits (n : Nat) : IsDigits (numeral n) := fun _ member =>
  Nat.isDigit_of_mem_toDigits (by decide) (by decide) member

theorem numeral_ne_nil (n : Nat) : numeral n ≠ [] := Nat.toDigits_ne_nil

theorem length_numeral_le {n width : Nat} (positive : 0 < width) (small : n < 10 ^ width) :
    (numeral n).length ≤ width :=
  (Nat.length_toDigits_le_iff (by decide) positive).mpr small

theorem numeralOfWidth_isDigits (width n : Nat) : IsDigits (numeralOfWidth width n) := by
  intro c member
  rw [numeralOfWidth, List.leftpad, List.mem_append] at member
  rcases member with zero | digit
  · rw [(List.mem_replicate.mp zero).2]
    rfl
  · exact numeral_isDigits n c digit

theorem numeralOfWidth_ne_nil (width n : Nat) : numeralOfWidth width n ≠ [] := by
  intro empty
  exact numeral_ne_nil n (List.append_eq_nil_iff.mp empty).2

theorem length_numeralOfWidth {width n : Nat} (positive : 0 < width) (small : n < 10 ^ width) :
    (numeralOfWidth width n).length = width := by
  have bound := length_numeral_le positive small
  rw [numeralOfWidth, List.length_leftpad]
  omega

/-- Zeros in front of a numeral do not count. -/
theorem value_numeralOfWidth (width n : Nat) : value (numeralOfWidth width n) = n := by
  rw [value, numeralOfWidth, List.leftpad, Nat.ofDigitChars_append, Nat.ofDigitChars_replicate_zero,
    Nat.mul_zero]
  exact value_numeral n

/-- All digits are taken off a text that begins with them, up to the limit. -/
theorem takeDigits_digits {digits rest : List Char} {limit : Nat} (all : IsDigits digits)
    (fits : digits.length ≤ limit) (stops : digits.length = limit ∨ StopsDigits rest) :
    takeDigits limit (digits ++ rest) = (digits, rest) := by
  induction digits generalizing limit with
  | nil =>
    cases limit with
    | zero => rfl
    | succ limit =>
      cases rest with
      | nil => rfl
      | cons c rest =>
        have stop : StopsDigits (c :: rest) := stops.resolve_left (by simp)
        simp [takeDigits, stop c rest rfl]
  | cons d digits ih =>
    cases limit with
    | zero => simp at fits
    | succ limit =>
      have digit : d.isDigit = true := all d (by simp)
      have others : IsDigits digits := fun c member => all c (List.mem_cons_of_mem _ member)
      have shorter : digits.length ≤ limit := by simpa using fits
      have tail := ih others shorter
        (stops.imp_left fun full => by simpa using full)
      simp [takeDigits, digit, tail]

/-- The number that digits stand for is read from a text that begins with them. -/
theorem readNumber_digits {digits : List Char} {limit : Nat} (rest : List Char) (all : IsDigits digits)
    (some_digit : digits ≠ []) (fits : digits.length ≤ limit)
    (stops : digits.length = limit ∨ StopsDigits rest) :
    readNumber limit (digits ++ rest) = some (value digits, rest) := by
  rw [readNumber, takeDigits_digits all fits stops]
  cases digits with
  | nil => exact absurd rfl some_digit
  | cons d digits => rfl

/-- A number of fixed width is read back whatever follows it. -/
theorem readNumber_numeralOfWidth {width n : Nat} {rest : List Char} (positive : 0 < width)
    (small : n < 10 ^ width) :
    readNumber width (numeralOfWidth width n ++ rest) = some (n, rest) := by
  have width_eq := length_numeralOfWidth positive small
  rw [readNumber_digits rest (numeralOfWidth_isDigits width n) (numeralOfWidth_ne_nil width n)
    (by omega) (.inl width_eq), value_numeralOfWidth]

end TaskLease.Text
