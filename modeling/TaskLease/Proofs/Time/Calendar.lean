import TaskLease.Time.Calendar

/-!
# Dates and day numbers

`Date.ofDay` finds the one date of a day: it is a date of the calendar (`isValid_ofDay`) and its number is
the day's (`toDay_ofDay`). Both come from one statement about the walk over the months, `splitMonth_spec`,
and from the length of a year.
-/

namespace TaskLease

/-- The days of some months together. -/
def totalDays (lengths : List Nat) : Nat := lengths.foldl Nat.add 0

theorem foldl_add (start : Nat) (lengths : List Nat) :
    lengths.foldl Nat.add start = start + totalDays lengths := by
  induction lengths generalizing start with
  | nil => rfl
  | cons length rest ih =>
    rw [totalDays, List.foldl_cons, List.foldl_cons, ih, ih (Nat.add 0 length)]
    simp only [Nat.add_eq]
    omega

theorem totalDays_cons (length : Nat) (rest : List Nat) :
    totalDays (length :: rest) = length + totalDays rest := by
  rw [totalDays, List.foldl_cons, foldl_add]
  simp

theorem totalDays_monthLengths (leap : Bool) :
    totalDays (monthLengths leap) = if leap then 366 else 365 := by
  cases leap <;> rfl

/-- A day within some months lies in one of them, and its number is made up of the months before and the
day of the month. -/
theorem splitMonth_spec (lengths : List Nat) (days : Nat) (within : days < totalDays lengths) :
    1 ≤ (splitMonth lengths days).1 ∧ 1 ≤ (splitMonth lengths days).2 ∧
      totalDays (lengths.take ((splitMonth lengths days).1 - 1)) + (splitMonth lengths days).2 = days + 1 ∧
      ∃ length, lengths[(splitMonth lengths days).1 - 1]? = some length ∧
        (splitMonth lengths days).2 ≤ length := by
  induction lengths generalizing days with
  | nil => exact absurd within (Nat.not_lt_zero _)
  | cons length rest ih =>
    rw [totalDays_cons] at within
    unfold splitMonth
    split
    · rename_i first
      refine ⟨by simp, by simp, ?_, length, by simp, ?_⟩
      · simp [totalDays]
      · dsimp only
        omega
    · rename_i later
      obtain ⟨month, day, number, found, held, bound⟩ := ih (days - length) (by omega)
      have shift : (splitMonth rest (days - length)).1 =
          ((splitMonth rest (days - length)).1 - 1) + 1 := by omega
      dsimp only
      refine ⟨by omega, day, ?_, found, ?_, bound⟩
      · rw [Nat.add_sub_cancel, shift, List.take_succ_cons, totalDays_cons]
        omega
      · rw [Nat.add_sub_cancel, shift, List.getElem?_cons_succ]
        exact held

/-- A leap year is a day longer. -/
theorem daysBeforeYear_succ (year : Int) :
    daysBeforeYear (year + 1) = daysBeforeYear year + if isLeapYear year then 366 else 365 := by
  unfold daysBeforeYear
  split
  · rename_i leap
    simp only [isLeapYear, ne_eq, decide_eq_true_eq] at leap
    omega
  · rename_i plain
    simp only [isLeapYear, ne_eq, decide_eq_true_eq] at plain
    omega

theorem daysBeforeYear_mono {year later : Int} (order : year ≤ later) :
    daysBeforeYear year ≤ daysBeforeYear later := by
  rcases Int.le_iff_lt_or_eq.mp order with less | same
  · unfold daysBeforeYear
    omega
  · subst same
    exact Int.le_refl _

namespace Date

variable (day : Int)

/-- The day of the year, from zero, that a date is found for. -/
theorem dayOfYear_lt :
    (day + epochDay - daysBeforeYear (yearOfDay (day + epochDay))).toNat <
      totalDays (monthLengths (isLeapYear (yearOfDay (day + epochDay)))) := by
  obtain ⟨lower, upper⟩ := daysBeforeYear_yearOfDay (day + epochDay)
  rw [daysBeforeYear_succ] at upper
  rw [totalDays_monthLengths]
  split at upper <;> simp_all <;> omega

theorem isValid_ofDay : (ofDay day).isValid = true := by
  obtain ⟨month, first, -, length, found, bound⟩ := splitMonth_spec _ _ (dayOfYear_lt day)
  simp [isValid, ofDay, found, month, first, bound]

theorem toDay_ofDay : (ofDay day).toDay = day := by
  obtain ⟨-, -, number, -⟩ := splitMonth_spec _ _ (dayOfYear_lt day)
  have lower := (daysBeforeYear_yearOfDay (day + epochDay)).1
  simp only [toDay, ofDay, foldl_add, Nat.zero_add]
  omega

/-- No month has more than 31 days and no year more than twelve months. -/
theorem ofDay_bounds : (ofDay day).month ≤ 12 ∧ (ofDay day).day ≤ 31 := by
  obtain ⟨month, -, -, length, found, bound⟩ := splitMonth_spec _ _ (dayOfYear_lt day)
  obtain ⟨index, found⟩ := List.getElem?_eq_some_iff.mp found
  have short : ∀ leap, ∀ length ∈ monthLengths leap, length ≤ 31 := by decide
  have twelve : ∀ leap, (monthLengths leap).length = 12 := by decide
  have held := short _ length (found ▸ List.getElem_mem index)
  rw [twelve] at index
  simp only [ofDay]
  omega

end Date

end TaskLease
