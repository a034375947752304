import TaskLease.Proofs.Text.Numerals
import TaskLease.Proofs.Time.Calendar
import TaskLease.Proofs.Time.InstantOrder
import TaskLease.Time.Timestamp

/-!
# Timestamps are read back

The reader of timestamps takes much more than the writer makes, and of what the writer makes it gives back
the instant that was written, leap seconds and years of any sign included (`read_write`). The proof follows
the reader from field to field.
-/

namespace TaskLease

namespace Text

theorem isBlank_of_isDigit {c : Char} (digit : c.isDigit = true) : isBlank c = false := by
  rw [Char.isDigit_iff_toNat] at digit
  have lower : '0'.toNat = 48 := rfl
  have upper : '9'.toNat = 57 := rfl
  simp only [isBlank, blankRanges, List.any_cons, List.any_nil, Bool.or_false, Bool.or_eq_false_iff,
    Bool.and_eq_false_iff, decide_eq_false_iff_not]
  omega

theorem skipBlanks_cons {c : Char} {rest : List Char} (solid : isBlank c = false) :
    skipBlanks (c :: rest) = c :: rest :=
  List.dropWhile_cons_of_neg (by simp [solid])

/-- Nothing is skipped in front of a digit. -/
theorem skipBlanks_digits {digits rest : List Char} (all : IsDigits digits) (some_digit : digits ≠ []) :
    skipBlanks (digits ++ rest) = digits ++ rest := by
  cases digits with
  | nil => exact absurd rfl some_digit
  | cons d digits => exact skipBlanks_cons (isBlank_of_isDigit (all d (by simp)))

end Text

namespace Timestamp

open Text

variable {rest : List Char}

theorem readField_two {n : Nat} (small : n < 100) :
    readField (numeralOfWidth 2 n ++ rest) = some (n, rest) := by
  rw [readField, skipBlanks_digits (numeralOfWidth_isDigits 2 n) (numeralOfWidth_ne_nil 2 n)]
  exact readNumber_numeralOfWidth (by decide) small

theorem readNext_two {separator : Char} {n : Nat} (solid : isBlank separator = false) (small : n < 100) :
    readNext separator (separator :: (numeralOfWidth 2 n ++ rest)) = some (n, rest) := by
  rw [readNext, skipBlanks_cons solid]
  simp [expect, readField_two small]

/-- A year without a sign. -/
theorem readYear_digits {digits : List Char} (all : IsDigits digits) (four : digits.length = 4) :
    readYear (digits ++ rest) = some ((value digits : Int), rest) := by
  have some_digit : digits ≠ [] := by
    rintro rfl
    cases four
  have read := readNumber_digits rest all some_digit (by omega) (.inl four)
  rw [readYear, skipBlanks_digits all some_digit]
  cases digits with
  | nil => exact absurd rfl some_digit
  | cons d digits =>
    have digit := all d (by simp)
    split
    · rename_i minus
      cases minus
      cases digit
    · rename_i plus
      cases plus
      cases digit
    · rw [read]
      rfl

/-- A signed year ends where its digits do. -/
theorem readYear_signed {digits : List Char} (all : IsDigits digits) (some_digit : digits ≠ [])
    (stops : StopsDigits rest) :
    readYear ('-' :: (digits ++ rest)) = some (-(value digits : Int), rest) ∧
      readYear ('+' :: (digits ++ rest)) = some ((value digits : Int), rest) := by
  have read : readNumber (digits ++ rest).length (digits ++ rest) = some (value digits, rest) :=
    readNumber_digits _ all some_digit (by simp) (.inr stops)
  constructor
  · rw [readYear, skipBlanks_cons (by decide)]
    simp only [read, Option.map_some]
  · rw [readYear, skipBlanks_cons (by decide)]
    simp only [read, Option.map_some]

theorem readYear_yearText (year : Int) (stops : StopsDigits rest) :
    readYear (yearText year ++ rest) = some (year, rest) := by
  have digits := numeralOfWidth_isDigits 4 year.natAbs
  have value_eq := value_numeralOfWidth 4 year.natAbs
  obtain ⟨minus, plus⟩ := readYear_signed digits (numeralOfWidth_ne_nil 4 _) stops
  rw [value_eq] at minus plus
  unfold yearText
  split
  · rename_i plain
    rw [readYear_digits digits (length_numeralOfWidth (by decide) (by omega)), value_eq]
    congr 2
    omega
  · split
    · rw [List.cons_append, minus]
      congr 2
      omega
    · rw [List.cons_append, plus]
      congr 2
      omega

theorem readFraction_digits {digits : List Char} (all : IsDigits digits) (some_digit : digits ≠ [])
    (fits : digits.length ≤ 9) (stops : StopsDigits rest) :
    readFraction ('.' :: (digits ++ rest)) =
      some (value digits * Nat.pow 10 (9 - digits.length), rest) := by
  have stay : rest.dropWhile Char.isDigit = rest := by
    cases rest with
    | nil => rfl
    | cons c rest => exact List.dropWhile_cons_of_neg (by simp [stops c rest rfl])
  simp only [readFraction, takeDigits_digits all fits (.inr stops)]
  cases digits with
  | nil => exact absurd rfl some_digit
  | cons d digits => simp only [stay]

/-- A fraction has three, six or nine decimals, and loses nothing by leaving the others out. -/
theorem readFraction_fractionText {nanos : Nat} (small : nanos < 1000000000) (stops : StopsDigits rest)
    (no_point : ∀ tail, rest ≠ '.' :: tail) :
    readFraction (fractionText nanos ++ rest) = some (nanos, rest) := by
  have group (width n : Nat) (positive : 0 < width) (fits : width ≤ 9) (bound : n < 10 ^ width) :
      readFraction ('.' :: numeralOfWidth width n ++ rest) = some (n * Nat.pow 10 (9 - width), rest) := by
    have width_eq := length_numeralOfWidth positive bound
    rw [List.cons_append, readFraction_digits (numeralOfWidth_isDigits width n)
      (numeralOfWidth_ne_nil width n) (by omega) stops, value_numeralOfWidth, width_eq]
  unfold fractionText
  split
  · rename_i whole
    subst whole
    unfold readFraction
    split
    · rename_i point
      exact absurd point (no_point _)
    · rfl
  · split
    · rename_i millis
      rw [group 3 _ (by decide) (by decide) (by omega)]
      congr 2
      show nanos / 1000000 * 1000000 = nanos
      omega
    · split
      · rename_i micros
        rw [group 6 _ (by decide) (by decide) (by omega)]
        congr 2
        show nanos / 1000 * 1000 = nanos
        omega
      · rw [group 9 _ (by decide) (by decide) (by omega)]
        congr 2
        show nanos * 1 = nanos
        omega

/-- The year of a day within the range of instants lies within the range of years. -/
theorem dayOf_ofDay (day : Int) (lower : -96465292 ≤ day) (upper : day ≤ 95026236) :
    dayOf (Date.ofDay day).year (Date.ofDay day).month (Date.ofDay day).day = some day := by
  obtain ⟨first, last⟩ := daysBeforeYear_yearOfDay (day + epochDay)
  have year_eq : (Date.ofDay day).year = yearOfDay (day + epochDay) := rfl
  have epoch : epochDay = 719528 := rfl
  unfold dayOf
  rw [if_pos, Date.toDay_ofDay]
  refine ⟨?_, ?_, Date.isValid_ofDay day⟩
  · -- an earlier year would have ended before the first day of the range
    rw [year_eq]
    have start : daysBeforeYear (-262143) = -95745764 := by decide
    refine Int.not_lt.mp fun early => ?_
    have ended := daysBeforeYear_mono (Int.add_one_le_iff.mpr early)
    omega
  · -- and a later one would begin after its last day
    rw [year_eq]
    have finish : daysBeforeYear (262142 + 1) = 95745765 := by decide
    refine Int.not_lt.mp fun late => ?_
    have begun := daysBeforeYear_mono (Int.add_one_le_iff.mpr late)
    omega

/-- The second of the day and the nanoseconds come back from the parts of a time, a leap second from the
second 60. -/
theorem timeOf_parts (second nanos : Nat) (day : second < 86400) (small : nanos < 2000000000)
    (leap : 1000000000 ≤ nanos → second % 60 = 59) :
    timeOf (second / 3600) (second / 60 % 60) (second % 60 + nanos / 1000000000) (nanos % 1000000000) =
      some (second, nanos) := by
  unfold timeOf
  rw [if_pos (by omega)]
  split
  · simp only [Option.some.injEq, Prod.mk.injEq]
    omega
  · simp only [Option.some.injEq, Prod.mk.injEq]
    omega

/-- The characters of the time that a clock shows, and of what it says about its zone. -/
def charactersAt (secs : Int) (nanos : Nat) (zone : List Char) : List Char :=
  let date := Date.ofDay (secs / 86400)
  let second := (secs % 86400).toNat
  yearText date.year ++ '-' :: numeralOfWidth 2 date.month
    ++ '-' :: numeralOfWidth 2 date.day
    ++ 'T' :: numeralOfWidth 2 (second / 3600)
    ++ ':' :: numeralOfWidth 2 (second / 60 % 60)
    ++ ':' :: numeralOfWidth 2 (second % 60 + nanos / 1000000000)
    ++ fractionText (nanos % 1000000000) ++ zone

/-- The time that a clock shows is read field by field, and its offset from UTC is taken off. -/
theorem readCharacters_charactersAt {secs offset : Int} {nanos : Nat} {c : Char} {zone : List Char}
    (lower : -8334601228800 ≤ secs) (upper : secs ≤ 8210266876799) (small : nanos < 2000000000)
    (leap : 1000000000 ≤ nanos → secs % 60 = 59) (solid : isBlank c = false) (no_digit : c.isDigit = false)
    (no_point : c ≠ '.') (read_zone : readOffset (c :: zone) = some (offset, [])) :
    readCharacters (charactersAt secs nanos (c :: zone)) = Instant.mk? (secs - offset) nanos := by
  have day := dayOf_ofDay (secs / 86400) (by omega) (by omega)
  have bounds := Date.ofDay_bounds (secs / 86400)
  have time := timeOf_parts (secs % 86400).toNat nanos (by omega) small (by omega)
  have separators : isBlank '-' = false ∧ isBlank ':' = false := by decide
  have no_fraction : ∀ tail, c :: zone ≠ '.' :: tail := by
    intro tail same
    exact no_point (List.cons.inj same).1
  simp only [charactersAt, List.append_assoc, List.cons_append, readCharacters, Option.bind_eq_bind]
  rw [readYear_yearText _ (stopsDigits_cons (by decide)), Option.bind_some,
    readNext_two separators.1 (by omega), Option.bind_some,
    readNext_two separators.1 (by omega), Option.bind_some]
  simp only [Option.bind_some]
  rw [readField_two (by omega), Option.bind_some,
    readNext_two separators.2 (by omega), Option.bind_some,
    readNext_two separators.2 (by omega), Option.bind_some,
    readFraction_fractionText (by omega) (stopsDigits_cons no_digit) no_fraction, Option.bind_some,
    skipBlanks_cons solid, read_zone, Option.bind_some]
  have nothing : skipBlanks [] = [] := rfl
  simp only [nothing, ne_eq, not_true_eq_false, if_false, Option.bind_some, day, time]
  congr 1
  omega

theorem readCharacters_characters (t : Instant) : readCharacters (characters t) = some t := by
  have read := readCharacters_charactersAt t.minSecs_le t.le_maxSecs t.nanos_lt t.secs_of_leap (by decide)
    (by decide) (by decide) (show readOffset ['Z'] = some (0, []) by decide)
  rw [Int.sub_zero, Instant.mk?_self] at read
  exact read

/-- Every instant is read back from its text. -/
theorem read_write (t : Instant) : read (write t) = some t := by
  rw [read, write, String.toList_ofList, readCharacters_characters]

/-! ## Other offsets -/

/-- An offset from UTC in whole minutes, as it is written. -/
def offsetText (minutes : Int) : List Char :=
  (if minutes < 0 then '-' else '+') :: numeralOfWidth 2 (minutes.natAbs / 60)
    ++ ':' :: numeralOfWidth 2 (minutes.natAbs % 60)

/-- The text of an instant by a clock that is some minutes ahead of UTC. -/
def writeAt (minutes : Int) (t : Instant) : String :=
  String.ofList (charactersAt (t.secs + minutes * 60) t.nanos (offsetText minutes))

theorem readPair_two {n : Nat} (small : n < 100) : readPair (numeralOfWidth 2 n ++ rest) = some (n, rest) := by
  have digits := numeralOfWidth_isDigits 2 n
  have value_eq := value_numeralOfWidth 2 n
  have two : (numeralOfWidth 2 n).length = 2 := length_numeralOfWidth (by decide) small
  match shape : numeralOfWidth 2 n, two with
  | [a, b], _ =>
    rw [shape] at digits value_eq
    simp [readPair, digits a, digits b, value_eq]

theorem readOffsetTime_text {minutes : Nat} (day : minutes < 1440) :
    readOffsetTime (numeralOfWidth 2 (minutes / 60) ++ ':' :: numeralOfWidth 2 (minutes % 60)) =
      some (minutes * 60, []) := by
  have digits := numeralOfWidth_isDigits 2 (minutes % 60)
  have second : readPair (numeralOfWidth 2 (minutes % 60)) = some (minutes % 60, []) := by
    have read : readPair (numeralOfWidth 2 (minutes % 60) ++ []) = some (minutes % 60, []) := readPair_two (by omega)
    rwa [List.append_nil] at read
  have separated : (':' :: numeralOfWidth 2 (minutes % 60)).dropWhile (fun c => c == ':' || isBlank c) =
      numeralOfWidth 2 (minutes % 60) := by
    match shape : numeralOfWidth 2 (minutes % 60), numeralOfWidth_ne_nil 2 (minutes % 60) with
    | c :: cs, _ =>
      have digit : c.isDigit = true := digits c (by rw [shape]; exact List.mem_cons_self)
      have solid := isBlank_of_isDigit digit
      have no_colon : c ≠ ':' := by
        rintro rfl
        cases digit
      simp [solid, no_colon]
  rw [readOffsetTime, readPair_two (by omega)]
  simp only [Option.bind_eq_bind, Option.bind_some, separated, second]
  rw [if_pos (by omega)]
  congr 2
  omega

theorem dropUtc_cons {c : Char} (other : c.toUpper ≠ 'U') : dropUtc (c :: rest) = none := by
  unfold dropUtc
  split
  · rename_i same
    cases same
    exact if_neg fun word => other word.1
  · rfl

theorem readOffset_offsetText {minutes : Int} (day : minutes.natAbs < 1440) :
    readOffset (offsetText minutes) = some (minutes * 60, []) := by
  have time := readOffsetTime_text day
  unfold offsetText
  split
  · rw [List.cons_append, readOffset, dropUtc_cons (by decide)]
    simp only [time, Option.map_some]
    congr 2
    omega
  · rw [List.cons_append, readOffset, dropUtc_cons (by decide)]
    simp only [time, Option.map_some]
    congr 2
    omega

/-- An instant is read back from its text by any clock, as long as the time that the clock shows is in range. -/
theorem read_writeAt (t : Instant) {minutes : Int} (day : minutes.natAbs < 1440)
    (lower : -8334601228800 ≤ t.secs + minutes * 60) (upper : t.secs + minutes * 60 ≤ 8210266876799) :
    read (writeAt minutes t) = some t := by
  have leap := t.secs_of_leap
  have zone := readOffset_offsetText day
  have signs : isBlank '-' = false ∧ isBlank '+' = false := by decide
  rw [read, writeAt, String.toList_ofList]
  unfold offsetText at zone ⊢
  split at zone
  · rename_i behind
    have shown := readCharacters_charactersAt lower upper t.nanos_lt (by omega) signs.1 (by decide) (by decide) zone
    rw [Int.add_sub_cancel, Instant.mk?_self] at shown
    rw [if_pos behind]
    exact shown
  · rename_i ahead
    have shown := readCharacters_charactersAt lower upper t.nanos_lt (by omega) signs.2 (by decide) (by decide) zone
    rw [Int.add_sub_cancel, Instant.mk?_self] at shown
    rw [if_neg ahead]
    exact shown

end Timestamp

end TaskLease
