import TaskLease.Proofs.Number.WholeNumbers
import TaskLease.Store.Redis.Server

/-!
# Numbers in the fields of a hash

A script writes a time as the numeral of a whole number of milliseconds, and reads it back as the double
nearest to it. What it wrote came from a double, so nothing is lost on the way: a whole number of at most
54 bits that a double can hold is read back as it was written, by the next script and by a client.
-/

namespace TaskLease

namespace Redis

open Text Binary64

/-- A number of milliseconds as it stands in a field. -/
def millisText (n : Nat) : String := String.ofList (numeral n)

variable {n : Nat} {x : Binary64} {digits : List Char}

theorem formatInteger_whole (whole : x.IsWhole n) : formatInteger x = millisText n := by
  rw [formatInteger, truncate_whole whole, signedNumeral, if_neg (Int.not_lt.mpr (Int.natCast_nonneg n)),
    Int.natAbs_natCast]
  rfl

theorem isFieldBlank_of_isDigit {c : Char} (digit : c.isDigit = true) : isFieldBlank c = false := by
  simp only [isFieldBlank, Bool.or_eq_false_iff, beq_eq_false_iff_ne]
  refine ⟨⟨⟨⟨⟨?_, ?_⟩, ?_⟩, ?_⟩, ?_⟩, ?_⟩ <;>
  · rintro rfl
    cases digit

theorem dropWhile_digits (all : IsDigits digits) : digits.dropWhile isFieldBlank = digits := by
  cases digits with
  | nil => rfl
  | cons c rest =>
    have solid := isFieldBlank_of_isDigit (all c List.mem_cons_self)
    exact List.dropWhile_cons_of_neg (by simp [solid])

theorem trimField_digits (all : IsDigits digits) : trimField digits = digits := by
  have back : IsDigits digits.reverse := fun c member => all c (List.mem_reverse.mp member)
  rw [trimField, dropWhile_digits all, dropWhile_digits back, List.reverse_reverse]

theorem readDecimal_digits (all : IsDigits digits) (some_digit : digits ≠ []) :
    readDecimal false digits = some (.ofDecimal false (value digits) 0) := by
  have taken : takeDigits digits.length digits = (digits, []) := by
    have first := takeDigits_digits all (Nat.le_refl _) (.inr stopsDigits_nil)
    rwa [List.append_nil] at first
  simp [readDecimal, taken, some_digit, readExponent]

theorem readUnsigned_digits (all : IsDigits digits) (some_digit : digits ≠ []) :
    readUnsigned false digits = some (.ofDecimal false (value digits) 0) := by
  unfold readUnsigned
  split
  · have letter := all 'x' (by simp)
    cases letter
  · have letter := all 'X' (by simp)
    cases letter
  · exact readDecimal_digits all some_digit

theorem toNumber_digits (all : IsDigits digits) (some_digit : digits ≠ []) :
    toNumber (String.ofList digits) = some (.ofDecimal false (value digits) 0) := by
  rw [toNumber, String.toList_ofList, trimField_digits all]
  split
  · have sign := all '-' List.mem_cons_self
    cases sign
  · have sign := all '+' List.mem_cons_self
    cases sign
  · exact readUnsigned_digits all some_digit

/-- A script reads the double nearest to the number in a field. -/
theorem toNumber_millisText (small : n < 0x40000000000000) :
    ∃ x, toNumber (millisText n) = some x ∧ x.IsWhole (nearest n) := by
  refine ⟨_, toNumber_digits (numeral_isDigits n) (numeral_ne_nil n), ?_⟩
  rw [value_numeral]
  exact ofDecimal_whole small

/-- A client reads the number itself. -/
theorem readInteger_millisText (small : n < 0x40000000000000) : readInteger (millisText n) = some (n : Int) := by
  have all := numeral_isDigits n
  have every : (numeral n).all Char.isDigit = true := List.all_eq_true.mpr all
  have some_digit : (numeral n).isEmpty = false := by
    rw [List.isEmpty_eq_false_iff]
    exact numeral_ne_nil n
  rw [readInteger, millisText, String.toList_ofList]
  split
  · rename_i digits same
    have sign := all '-' (by rw [same]; exact List.mem_cons_self)
    cases sign
  · rename_i digits same
    have sign := all '+' (by rw [same]; exact List.mem_cons_self)
    cases sign
  · simp only [some_digit, every, Bool.not_true, Bool.or_false, Bool.false_eq_true, if_false, Option.bind_some,
      value_numeral]
    rw [if_pos (by omega)]

end Redis

end TaskLease
