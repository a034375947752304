import TaskLease.Proofs.Time.Calendar
import TaskLease.Proofs.Time.InstantOrder

/-!
# Sums on the calendar

The calendar has the dates of the years -262143 to 262142, and it reckons with differences of at most 2⁶³ - 1
milliseconds. So there are two ways in which an instant and a duration can fail to have a sum: the duration is too long
to be a difference (`Delta.ofDuration?`), or the sum has no date (`Instant.plus?`). Either happens only where the sum
lies behind the last instant, and one of them happens wherever it does (`sum?_eq_none_iff`). With the last instant in
the place of sums that are missing, the sum is `Instant.add` (`add_eq_sum?`).
-/

namespace TaskLease

/-- A difference between two instants: whole seconds, and the nanoseconds beyond them. -/
structure Delta where
  secs : Nat
  nanos : Nat
deriving DecidableEq, Repr

namespace Delta

/-- The milliseconds of the longest difference. -/
def maxMillis : Nat := 0x7FFFFFFFFFFFFFFF

/-- The longest difference. -/
def max : Delta := ⟨maxMillis / 1000, maxMillis % 1000 * 1000000⟩

/-- The difference that a duration makes, unless it is too long. -/
def ofDuration? (d : Duration) : Option Delta :=
  if max.secs < d.seconds then none
  else if d.seconds = max.secs ∧ max.nanos < d.subsecNanos then none
  else some ⟨d.seconds, d.subsecNanos⟩

end Delta

namespace Date

/-- The first and the last year of the calendar. -/
def firstYear : Int := -262143

def lastYear : Int := 262142

/-- Whether the calendar has a day. -/
def hasDay (day : Int) : Bool := firstYear ≤ (ofDay day).year ∧ (ofDay day).year ≤ lastYear

end Date

namespace Instant

/-- The time of day some time after that of an instant: seconds, perhaps more than a day has, and nanoseconds. A leap
second is left only by a step that reaches its end. -/
def timeAfter (t : Instant) (δ : Delta) : Int × Nat :=
  if 1000000000 ≤ t.nanos ∧ δ.secs = 0 ∧ t.nanos + δ.nanos < 2000000000 then (t.secondOfDay, t.nanos + δ.nanos)
  else
    let nanos := t.nanos % 1000000000 + δ.nanos
    (t.secondOfDay + δ.secs + (nanos / 1000000000 : Nat), nanos % 1000000000)

/-- The instant a difference later, if the calendar has its day. -/
def plus? (t : Instant) (δ : Delta) : Option Instant :=
  let (second, nanos) := t.timeAfter δ
  let day := t.secs / 86400 + second / 86400
  if Date.hasDay day then mk? (day * 86400 + second % 86400) nanos else none

/-- The instant a duration later, if the duration is a difference and the calendar has the day. -/
def sum? (t : Instant) (d : Duration) : Option Instant := (Delta.ofDuration? d).bind t.plus?

end Instant

namespace Date

theorem hasDay_iff {day : Int} : hasDay day = true ↔ -96465292 ≤ day ∧ day ≤ 95026236 := by
  obtain ⟨lower, upper⟩ := daysBeforeYear_yearOfDay (day + epochDay)
  have first : daysBeforeYear firstYear = -96465292 + epochDay := by decide
  have last : daysBeforeYear (lastYear + 1) = 95026237 + epochDay := by decide
  have year : (ofDay day).year = yearOfDay (day + epochDay) := rfl
  rw [hasDay, decide_eq_true_eq, year]
  constructor
  · rintro ⟨least, most⟩
    have := daysBeforeYear_mono least
    have := daysBeforeYear_mono (Int.add_le_add_right most 1)
    omega
  · rintro ⟨least, most⟩
    constructor
    · by_contra before
      have := daysBeforeYear_mono (show yearOfDay (day + epochDay) + 1 ≤ firstYear by omega)
      omega
    · by_contra after
      have := daysBeforeYear_mono (show lastYear + 1 ≤ yearOfDay (day + epochDay) by omega)
      omega

end Date

/-- A duration of more than the most milliseconds is no difference, and every other one is. -/
theorem Delta.ofDuration?_eq (d : Duration) :
    ofDuration? d = if maxMillis * 1000000 < d.nanos then none else some ⟨d.seconds, d.subsecNanos⟩ := by
  have longest : max.secs = 9223372036854775 ∧ max.nanos = 807000000 ∧
    maxMillis * 1000000 = 9223372036854775807000000 := by decide
  have second : Duration.nanosPerSecond = 1000000000 := rfl
  unfold ofDuration? Duration.seconds Duration.subsecNanos
  rw [longest.1, longest.2.1, longest.2.2, second]
  split_ifs <;> first | rfl | omega

namespace Instant

variable {t : Instant} {d : Duration}

/-- The second in which a sum ends. -/
def endSecond (t : Instant) (d : Duration) : Int := t.secs + ((t.nanos % 1000000000 + d.nanos) / 1000000000 : Nat)

theorem add_of_behind (behind : max.secs < t.endSecond d) : t.add d = max := by
  have last : max.secs = 8210266876799 := rfl
  have bound := t.le_maxSecs
  unfold endSecond at behind
  unfold add
  split
  · omega
  · exact dif_neg (by omega)

/-- Reckoned from the beginning of its day, a sum ends in the same second. -/
theorem timeAfter_second (t : Instant) (d : Duration) :
    t.secs / 86400 * 86400 + (t.timeAfter ⟨d.seconds, d.subsecNanos⟩).1 = t.endSecond d := by
  have second : Duration.nanosPerSecond = 1000000000 := rfl
  unfold timeAfter secondOfDay endSecond Duration.seconds Duration.subsecNanos
  rw [second]
  split
  · rename_i stays
    dsimp only at stays ⊢
    omega
  · dsimp only
    omega

/-- A sum that does not lie behind the last instant is made up of the second and the nanoseconds reckoned so. -/
theorem add_of_within (within : t.endSecond d ≤ max.secs) :
    (t.add d).secs = t.endSecond d ∧ (t.add d).nanos = (t.timeAfter ⟨d.seconds, d.subsecNanos⟩).2 := by
  have second : Duration.nanosPerSecond = 1000000000 := rfl
  have last : max.secs = 8210266876799 := rfl
  unfold endSecond at within ⊢
  unfold timeAfter Duration.seconds Duration.subsecNanos
  rw [second]
  unfold add
  split
  · rw [if_pos (by dsimp only; omega)]
    dsimp only
    omega
  · rw [if_neg (by dsimp only; omega), plusNanos, dif_pos (by omega)]
    dsimp only
    omega

/-- The calendar has the day of a sum exactly if the sum does not lie behind the last instant. -/
theorem plus?_eq (t : Instant) (d : Duration) :
    t.plus? ⟨d.seconds, d.subsecNanos⟩ = if t.endSecond d ≤ max.secs then some (t.add d) else none := by
  have time := timeAfter_second t d
  have last : max.secs = 8210266876799 := rfl
  have first := t.minSecs_le
  have forward : t.secs ≤ t.endSecond d := Int.le_add_of_nonneg_right (Int.natCast_nonneg _)
  unfold plus?
  generalize reckoned : t.timeAfter ⟨d.seconds, d.subsecNanos⟩ = δ at time
  have whole : (t.secs / 86400 + δ.1 / 86400) * 86400 + δ.1 % 86400 = t.endSecond d := by omega
  have dated : Date.hasDay (t.secs / 86400 + δ.1 / 86400) = true ↔ t.endSecond d ≤ max.secs := by
    rw [Date.hasDay_iff]
    omega
  dsimp only
  rw [whole]
  simp only [dated]
  split
  · rename_i within
    obtain ⟨secs, nanos⟩ := add_of_within within
    rw [← secs, ← reckoned, ← nanos, mk?_self]
  · rfl

/-- Nor is a duration too long to be a difference, unless its sum lies behind the last instant. -/
theorem sum?_eq (t : Instant) (d : Duration) :
    t.sum? d = if t.endSecond d ≤ max.secs then some (t.add d) else none := by
  rw [sum?, Delta.ofDuration?_eq]
  split
  · rename_i long
    have longest : Delta.maxMillis * 1000000 = 9223372036854775807000000 := by decide
    have last : max.secs = 8210266876799 := rfl
    have first := t.minSecs_le
    have behind : ¬ t.endSecond d ≤ max.secs := by
      unfold endSecond
      omega
    rw [if_neg behind]
    rfl
  · exact plus?_eq t d

/-- With the last instant in the place of a sum that there is not, the sum is that of the calendar. -/
theorem add_eq_sum? (t : Instant) (d : Duration) : t.add d = (t.sum? d).getD max := by
  rw [sum?_eq]
  split
  · rfl
  · exact add_of_behind (by omega)

/-- Outside leap seconds a sum is missing exactly if it lies behind the last instant. -/
theorem sum?_eq_none_iff (calm : t.isLeap = false) : t.sum? d = none ↔ max.ticks < t.ticks + d.nanos := by
  have small := nanos_lt_of_not_leap calm
  have behind : max.secs < t.endSecond d ↔ max.ticks < t.ticks + d.nanos := by
    have last : max.secs = 8210266876799 := rfl
    rw [ticks_max]
    unfold endSecond ticks
    omega
  rw [sum?_eq, ← behind, ← Int.not_le]
  split <;> simp [*]

/-- What a sum comes to, from a start outside leap seconds. -/
structure Saturates (t : Instant) : Prop where
  /-- It is the sum of the calendar, or the last instant where the calendar has none. -/
  reckoned : ∀ d, t.add d = (t.sum? d).getD max
  /-- The calendar has none exactly where it would lie behind the last instant. -/
  missing : ∀ d, t.sum? d = none ↔ max.ticks < t.ticks + d.nanos
  sum : ∀ d, t.ticks + d.nanos ≤ max.ticks → (t.add d).ticks = t.ticks + d.nanos
  full : ∀ d, max.ticks < t.ticks + d.nanos → t.add d = max
  calm : ∀ d, (t.add d).isLeap = false
  forward : ∀ d, t ≤ t.add d
  monotone : ∀ u d e, u.isLeap = false → t ≤ u → d ≤ e → t.add d ≤ u.add e
  /-- A duration may be taken in parts, wherever the last instant is reached. -/
  parts : ∀ d e, (t.add d).add e = t.add (d + e)

theorem saturates (calm : t.isLeap = false) : t.Saturates where
  reckoned := add_eq_sum? t
  missing _ := sum?_eq_none_iff calm
  sum d within := by
    rw [ticks_add calm]
    exact min_eq_left within
  full d behind := by
    rw [add_eq_sum?, (sum?_eq_none_iff calm).mpr behind]
    rfl
  calm _ := add_not_leap calm
  forward _ := le_add calm
  monotone _ _ _ calm' := add_le_add calm calm'
  parts := add_add calm

end Instant

end TaskLease
