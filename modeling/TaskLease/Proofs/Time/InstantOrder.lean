import Mathlib.Order.MinMax
import TaskLease.Time.Instant

/-!
# The order of instants

Instants are ordered by their seconds and then by their nanoseconds, a total order in which `later` is the
maximum. Outside leap seconds an instant is the number of nanoseconds since the epoch, and adding a
duration adds its nanoseconds to that number until the last instant is reached (`ticks_add`); that a
later sum comes from a longer duration or a later start follows from there.
-/

namespace TaskLease

namespace Instant

variable {a b t : Instant} {d e : Duration}

theorem ext_parts (secs : a.secs = b.secs) (nanos : a.nanos = b.nanos) : a = b := by
  cases a
  cases b
  cases secs
  cases nanos
  rfl

theorem mk?_self (t : Instant) : mk? t.secs t.nanos = some t :=
  dif_pos ⟨⟨t.minSecs_le, t.le_maxSecs⟩, t.nanos_lt, t.secs_of_leap⟩

/-- Seconds first, then nanoseconds. -/
instance : LinearOrder Instant where
  le_refl a := le_def.mpr (.inr ⟨rfl, Nat.le_refl _⟩)
  le_trans a b c first second := by
    rw [le_def] at *
    omega
  le_antisymm a b first second := by
    rw [le_def] at *
    exact ext_parts (by omega) (by omega)
  le_total a b := by
    rw [le_def, le_def]
    omega
  lt_iff_le_not_ge a b := by
    rw [lt_def, le_def, le_def]
    omega
  toDecidableLE := inferInstance
  toDecidableLT := inferInstance

theorem later_eq_max (a b : Instant) : a.later b = Max.max a b := by
  unfold later
  split
  · rename_i below
    exact (max_eq_right below).symm
  · rename_i above
    exact (max_eq_left (le_of_not_ge above)).symm

/-- The nanoseconds from the epoch to an instant. A leap second counts as part of the next one. -/
def ticks (t : Instant) : Int := t.secs * 1000000000 + t.nanos

theorem nanos_lt_of_not_leap (calm : t.isLeap = false) : t.nanos < 1000000000 := by
  simpa [isLeap] using calm

/-- Outside leap seconds the order of instants is that of their nanoseconds since the epoch. -/
theorem le_iff_ticks (calm : a.isLeap = false) (calm' : b.isLeap = false) :
    a ≤ b ↔ a.ticks ≤ b.ticks := by
  have small := nanos_lt_of_not_leap calm
  have small' := nanos_lt_of_not_leap calm'
  rw [le_def]
  unfold ticks
  omega

/-- Nor do two of them have the same nanoseconds. -/
theorem eq_of_ticks (calm : a.isLeap = false) (calm' : b.isLeap = false) (same : a.ticks = b.ticks) : a = b :=
  le_antisymm ((le_iff_ticks calm calm').mpr same.le) ((le_iff_ticks calm' calm).mpr same.ge)

theorem ticks_max : max.ticks = 8210266876799999999999 := rfl

/-- No instant outside a leap second lies behind the last one. -/
theorem ticks_le_max (calm : t.isLeap = false) : t.ticks ≤ max.ticks := by
  have small := nanos_lt_of_not_leap calm
  have bound := t.le_maxSecs
  rw [ticks_max]
  unfold ticks
  omega

theorem plusNanos_not_leap (secs : Int) (nanos : Nat) (h : -8334601228800 ≤ secs) :
    (plusNanos secs nanos h).isLeap = false := by
  unfold plusNanos isLeap
  split
  · simpa using Nat.mod_lt nanos (by decide)
  · rfl

theorem ticks_plusNanos (secs : Int) (nanos : Nat) (h : -8334601228800 ≤ secs) :
    (plusNanos secs nanos h).ticks = min (secs * 1000000000 + nanos) max.ticks := by
  rw [ticks_max]
  unfold plusNanos
  split
  · rename_i within
    simp only [ticks]
    omega
  · rename_i beyond
    rw [ticks_max]
    omega

theorem add_of_not_leap (calm : t.isLeap = false) :
    t.add d = plusNanos t.secs (t.nanos + d.nanos) t.minSecs_le := by
  have small := nanos_lt_of_not_leap calm
  unfold add
  rw [dif_neg (by omega)]
  simp only [Nat.mod_eq_of_lt small]

/-- A sum that starts outside a leap second ends outside one. -/
theorem add_not_leap (calm : t.isLeap = false) : (t.add d).isLeap = false := by
  rw [add_of_not_leap calm]
  exact plusNanos_not_leap ..

/-- A sum is exact until it reaches the last instant, and stays there. -/
theorem ticks_add (calm : t.isLeap = false) : (t.add d).ticks = min (t.ticks + d.nanos) max.ticks := by
  rw [add_of_not_leap calm, ticks_plusNanos]
  congr 1
  unfold ticks
  omega

theorem le_add (calm : t.isLeap = false) : t ≤ t.add d := by
  rw [le_iff_ticks calm (add_not_leap calm), ticks_add calm]
  have bound := ticks_le_max calm
  omega

/-- A later start and a longer duration lead at least as far. -/
theorem add_le_add (calm : a.isLeap = false) (calm' : b.isLeap = false) (later : a ≤ b) (longer : d ≤ e) :
    a.add d ≤ b.add e := by
  rw [le_iff_ticks calm calm'] at later
  rw [Duration.le_def] at longer
  rw [le_iff_ticks (add_not_leap calm) (add_not_leap calm'), ticks_add calm, ticks_add calm']
  omega

/-- Two durations one after the other lead as far as both together, even if only the second one reaches the last
instant. -/
theorem add_add (calm : t.isLeap = false) (d e : Duration) : (t.add d).add e = t.add (d + e) := by
  have calm_between := add_not_leap (d := d) calm
  apply eq_of_ticks (add_not_leap calm_between) (add_not_leap calm)
  rw [ticks_add calm_between, ticks_add calm, ticks_add calm, Duration.nanos_add]
  omega

theorem add_le_add_right (calm : t.isLeap = false) (longer : d ≤ e) : t.add d ≤ t.add e :=
  add_le_add calm calm le_rfl longer

/-- What is left of a duration leads at least as far from where some of it has passed, or later. -/
theorem add_le_add_rest {passed : Duration} (calm : t.isLeap = false) (calm' : a.isLeap = false)
    (late : t.add passed ≤ a) : t.add d ≤ a.add (d - passed) := by
  rw [le_iff_ticks (add_not_leap calm) calm', ticks_add calm] at late
  rw [le_iff_ticks (add_not_leap calm) (add_not_leap calm'), ticks_add calm, ticks_add calm', Duration.nanos_sub]
  have bound := ticks_le_max calm'
  omega

/-- From where some of a duration has passed, what is left of it leads no further, unless all of it has
passed. -/
theorem max_add_rest {passed : Duration} (calm : t.isLeap = false) (calm' : a.isLeap = false)
    (later : t.add passed ≤ a) : Max.max a ((t.add passed).add (d - passed)) = Max.max a (t.add d) := by
  have calm_passed := add_not_leap (d := passed) calm
  refine le_antisymm (max_le (le_max_left ..) ?_) (max_le_max_left _ (add_le_add_rest calm calm_passed le_rfl))
  rw [le_max_iff, le_iff_ticks (add_not_leap calm_passed) calm',
    le_iff_ticks (add_not_leap calm_passed) (add_not_leap calm)]
  rw [le_iff_ticks calm_passed calm'] at later
  simp only [ticks_add calm_passed, ticks_add calm, Duration.nanos_sub] at later ⊢
  omega

/-- A duration that is some time leads on from every instant before the last one, leap seconds
included. -/
theorem lt_add_of_pos (before : t < max) (some_time : 0 < d.nanos) : t < t.add d := by
  rw [lt_def] at before
  have last : max.secs = 8210266876799 ∧ max.nanos = 999999999 := ⟨rfl, rfl⟩
  have bound := t.nanos_lt
  unfold add
  split
  · rw [lt_def]
    exact .inr ⟨rfl, by simpa using some_time⟩
  · rename_i outside
    unfold plusNanos
    split
    · rw [lt_def]
      dsimp only
      omega
    · rw [lt_def]
      omega

theorem add_zero (t : Instant) : t.add ⟨0⟩ = t := by
  have bound := t.le_maxSecs
  have small := t.nanos_lt
  unfold add
  dsimp only
  split
  · rfl
  · rename_i outside
    have calm : t.nanos < 1000000000 := by omega
    have start : t.nanos % 1000000000 + 0 = t.nanos := Nat.mod_eq_of_lt calm
    simp only [plusNanos, start, Nat.div_eq_of_lt calm]
    rw [dif_pos (by omega)]
    exact ext_parts (by simp) (Nat.mod_eq_of_lt calm)

/-- Before the last instant a sum lies ahead exactly if the duration is some time. -/
theorem lt_add_iff (before : t < max) : t < t.add d ↔ 0 < d.nanos := by
  refine ⟨?_, lt_add_of_pos before⟩
  intro ahead
  by_contra none
  obtain rfl : d = ⟨0⟩ := congrArg Duration.mk (Nat.eq_zero_of_not_pos none)
  rw [add_zero] at ahead
  exact lt_irrefl t ahead

end Instant

end TaskLease
