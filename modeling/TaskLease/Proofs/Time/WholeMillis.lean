import TaskLease.Proofs.Time.InstantOrder

/-!
# Whole milliseconds

Instants and durations of whole milliseconds lose nothing when they are reckoned in milliseconds. An instant
`IsMillis` if its number of milliseconds since the epoch leads back to it. Between such instants the order is
that of the numbers, and a sum that does not run into the last instant is the sum of the numbers.
-/

namespace TaskLease

/-- A duration of whole milliseconds. -/
def Duration.IsMillis (d : Duration) : Prop := d.nanos % 1000000 = 0

instance (d : Duration) : Decidable d.IsMillis := inferInstanceAs (Decidable (_ = _))

theorem Duration.IsMillis.nanos_eq {d : Duration} (whole : d.IsMillis) : d.nanos = d.millis * 1000000 := by
  unfold IsMillis at whole
  unfold millis
  omega

namespace Instant

variable {a b t : Instant} {d : Duration}

/-- An instant a whole number of milliseconds after the epoch. -/
def IsMillis (t : Instant) : Prop := 0 ≤ t.epochMillis ∧ ofEpochMillis? t.epochMillis = some t

instance (t : Instant) : Decidable t.IsMillis := inferInstanceAs (Decidable (_ ∧ _))

theorem isMillis_iff : t.IsMillis ↔ 0 ≤ t.secs ∧ t.isLeap = false ∧ t.nanos % 1000000 = 0 := by
  have small := t.nanos_lt
  constructor
  · rintro ⟨positive, back⟩
    unfold ofEpochMillis? mk? at back
    split at back
    · have same := Option.some.inj back
      have secs : t.epochMillis / 1000 = t.secs := congrArg Instant.secs same
      have nanos : (t.epochMillis % 1000).toNat * 1000000 = t.nanos := congrArg Instant.nanos same
      simp only [isLeap, decide_eq_false_iff_not]
      omega
    · cases back
  · rintro ⟨positive, calm, whole⟩
    have within := nanos_lt_of_not_leap calm
    have parts : t.epochMillis / 1000 = t.secs ∧ (t.epochMillis % 1000).toNat * 1000000 = t.nanos := by
      unfold epochMillis
      omega
    refine ⟨by unfold epochMillis; omega, ?_⟩
    rw [ofEpochMillis?, parts.1, parts.2, mk?_self]

theorem IsMillis.not_leap (whole : t.IsMillis) : t.isLeap = false := (isMillis_iff.mp whole).2.1

theorem IsMillis.ticks_eq (whole : t.IsMillis) : t.ticks = t.epochMillis * 1000000 := by
  obtain ⟨-, -, exact'⟩ := isMillis_iff.mp whole
  unfold ticks epochMillis
  omega

/-- Instants of whole milliseconds are in the order of their milliseconds. -/
theorem IsMillis.le_iff (first : a.IsMillis) (second : b.IsMillis) : a ≤ b ↔ a.epochMillis ≤ b.epochMillis := by
  rw [le_iff_ticks first.not_leap second.not_leap, first.ticks_eq, second.ticks_eq]
  omega

/-- Whole milliseconds after whole milliseconds are whole milliseconds. -/
theorem IsMillis.add (whole : t.IsMillis) (duration : d.IsMillis) (fits : t.ticks + d.nanos ≤ max.ticks) :
    (t.add d).IsMillis ∧ (t.add d).epochMillis = t.epochMillis + d.millis := by
  obtain ⟨positive, calm, exact'⟩ := isMillis_iff.mp whole
  have sum : (t.add d).ticks = t.ticks + d.nanos := by
    rw [ticks_add calm]
    exact min_eq_left fits
  have within := nanos_lt_of_not_leap (add_not_leap (d := d) calm)
  have length := duration.nanos_eq
  simp only [ticks] at sum
  constructor
  · rw [isMillis_iff]
    exact ⟨by omega, add_not_leap calm, by omega⟩
  · unfold epochMillis
    omega

/-- A sum up to the last instant has fewer milliseconds than 2⁵³. -/
theorem IsMillis.sum_lt (whole : t.IsMillis) (duration : d.IsMillis) (fits : t.ticks + d.nanos ≤ max.ticks) :
    t.epochMillis.toNat + d.millis < 0x20000000000000 := by
  have length := duration.nanos_eq
  have first := whole.1
  rw [whole.ticks_eq, ticks_max] at fits
  omega

end Instant

end TaskLease
