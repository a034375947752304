import Mathlib.Algebra.Order.Ring.Nat
import TaskLease.Proofs.Text.Numerals
import TaskLease.Number.Binary64

/-!
# Whole numbers in double precision

Double precision holds whole numbers of up to 53 bits exactly, and of those of 54 bits the even ones.
`IsWhole` says that a number stands for a whole number. Up to 54 bits rounding, addition, comparison and
truncation are then those of whole numbers, followed by `nearest` where the result may be odd
(`ofRatio_whole`, `add_whole`, `lt_whole`, `truncate_whole`).
-/

namespace TaskLease

namespace Binary64

/-- A number that stands for a whole number. -/
def IsWhole (x : Binary64) (n : Nat) : Prop :=
  ∃ m e, x = .finite false m e ∧ m * 2 ^ e.toNat = n * 2 ^ (-e).toNat

/-- The whole number that a whole number of at most 54 bits is rounded to. -/
def nearest (n : Nat) : Nat := if n < 0x20000000000000 then n else 2 * roundQuotient n 2

variable {x y : Binary64} {a b n : Nat}

theorem nearest_of_lt (small : n < 0x20000000000000) : nearest n = n := if_pos small

theorem roundQuotient_mul_self (q : Nat) {d : Nat} (positive : 0 < d) : roundQuotient (q * d) d = q := by
  rw [roundQuotient, Nat.mul_div_cancel q positive, Nat.mul_mod_left]
  exact if_neg (by omega)

/-- Only the ratio counts. -/
theorem roundQuotient_mul_right (num den : Nat) {c : Nat} (positive : 0 < c) :
    roundQuotient (num * c) (den * c) = roundQuotient num den := by
  have below : den * c < 2 * (num % den * c) ↔ den < 2 * (num % den) := by
    rw [← Nat.mul_assoc]
    exact Nat.mul_lt_mul_right positive
  have half : 2 * (num % den * c) = den * c ↔ 2 * (num % den) = den := by
    rw [← Nat.mul_assoc]
    exact Nat.mul_left_inj (by omega)
  simp only [roundQuotient, Nat.mul_div_mul_right num den positive, Nat.mul_mod_mul_right, below, half]

theorem roundQuotient_two (n : Nat) : roundQuotient n 2 = n / 2 ∨ roundQuotient n 2 = (n + 1) / 2 := by
  simp only [roundQuotient]
  split <;> omega

/-- What has been rounded once is not rounded again. -/
theorem nearest_nearest (n : Nat) : nearest (nearest n) = nearest n := by
  have again (q : Nat) : roundQuotient (2 * q) 2 = q := by
    rw [Nat.mul_comm]
    exact roundQuotient_mul_self q (by decide)
  unfold nearest
  split
  · rfl
  · split
    · rfl
    · rw [again]

theorem nearest_lt (small : n < 0x3FFFFFFFFFFFFF) : nearest n < 0x40000000000000 := by
  unfold nearest
  have half := roundQuotient_two n
  split <;> omega

theorem log2_mul_two_pow (k : Nat) (positive : n ≠ 0) : (n * 2 ^ k).log2 = n.log2 + k := by
  have power : 0 < 2 ^ k := Nat.two_pow_pos k
  have product : n * 2 ^ k ≠ 0 := Nat.mul_ne_zero positive (by omega)
  rw [Nat.log2_eq_iff product, Nat.add_right_comm, Nat.pow_add, Nat.pow_add]
  exact ⟨Nat.mul_le_mul_right _ (Nat.log2_self_le positive),
    Nat.mul_lt_mul_of_pos_right Nat.lt_log2_self power⟩

/-- A whole number of `bits` bits takes the exponent at which its first bit is the 53rd. -/
theorem exponentOf_whole (k : Nat) (positive : n ≠ 0) :
    exponentOf (n * 2 ^ k) (2 ^ k) = (n.log2 : Int) - 52 := by
  have lower := Nat.log2_self_le positive
  have power : 0 < 2 ^ k := Nat.two_pow_pos k
  have guess : ((n * 2 ^ k).log2 : Int) - (2 ^ k).log2 - 52 = (n.log2 : Int) - 52 := by
    rw [log2_mul_two_pow k positive, Nat.log2_two_pow]
    omega
  have full : leastNormal ≤ (scaled (n * 2 ^ k) (2 ^ k) ((n.log2 : Int) - 52)).1 /
      (scaled (n * 2 ^ k) (2 ^ k) ((n.log2 : Int) - 52)).2 := by
    unfold scaled
    split
    · rename_i short
      have shift : n.log2 + ((n.log2 : Int) - 52).natAbs = 52 := by omega
      rw [Nat.shiftLeft_eq, Nat.mul_right_comm, Nat.mul_div_cancel _ power]
      calc leastNormal = 2 ^ (n.log2 + ((n.log2 : Int) - 52).natAbs) := by rw [shift]; rfl
        _ = 2 ^ n.log2 * 2 ^ ((n.log2 : Int) - 52).natAbs := Nat.pow_add ..
        _ ≤ n * 2 ^ ((n.log2 : Int) - 52).natAbs := Nat.mul_le_mul_right _ lower
    · rename_i long
      have shift : n.log2 = 52 + ((n.log2 : Int) - 52).natAbs := by omega
      rw [Nat.shiftLeft_eq, Nat.mul_comm n, Nat.mul_div_mul_left _ _ power,
        Nat.le_div_iff_mul_le (Nat.two_pow_pos _)]
      calc leastNormal * 2 ^ ((n.log2 : Int) - 52).natAbs
          = 2 ^ (52 + ((n.log2 : Int) - 52).natAbs) := (Nat.pow_add 2 52 _).symm
        _ = 2 ^ n.log2 := by rw [← shift]
        _ ≤ n := lower
  simp only [exponentOf, guess]
  rw [if_neg (Nat.not_lt.mpr full)]
  exact if_neg (by unfold minExponent; omega)

/-- A whole number of at most 54 bits, given as a ratio whose denominator is a power of two. -/
theorem ofRatio_whole (k : Nat) (small : n < 0x40000000000000) :
    (ofRatio false (n * 2 ^ k) (2 ^ k)).IsWhole (nearest n) := by
  have power : 0 < 2 ^ k := Nat.two_pow_pos k
  by_cases zero_eq : n = 0
  · subst n
    rw [Nat.zero_mul, ofRatio, if_pos rfl]
    exact ⟨0, minExponent, rfl, by rw [nearest_of_lt (by decide)]; simp⟩
  have product : n * 2 ^ k ≠ 0 := Nat.mul_ne_zero zero_eq (by omega)
  have bits : n.log2 < 54 := (Nat.log2_lt zero_eq).mpr small
  have upper := (Nat.log2_eq_iff zero_eq).mp rfl
  rw [ofRatio, if_neg product]
  simp only [exponentOf_whole k zero_eq]
  by_cases short : n.log2 < 53
  · -- up to 53 bits the mantissa is exact
    have small' : n < 0x20000000000000 := (Nat.log2_lt zero_eq).mp short
    have exact_eq : roundQuotient (scaled (n * 2 ^ k) (2 ^ k) ((n.log2 : Int) - 52)).1
        (scaled (n * 2 ^ k) (2 ^ k) ((n.log2 : Int) - 52)).2 = n * 2 ^ (52 - n.log2) := by
      unfold scaled
      split
      · have shift : ((n.log2 : Int) - 52).natAbs = 52 - n.log2 := by omega
        rw [shift, Nat.shiftLeft_eq, Nat.mul_right_comm]
        exact roundQuotient_mul_self _ power
      · have shift : ((n.log2 : Int) - 52).natAbs = 0 ∧ 52 - n.log2 = 0 := by omega
        rw [shift.1, shift.2, Nat.shiftLeft_zero, Nat.pow_zero, Nat.mul_one]
        exact roundQuotient_mul_self _ power
    have below : n * 2 ^ (52 - n.log2) < 2 * leastNormal := by
      calc n * 2 ^ (52 - n.log2) < 2 ^ (n.log2 + 1) * 2 ^ (52 - n.log2) :=
            Nat.mul_lt_mul_of_pos_right upper.2 (Nat.two_pow_pos _)
        _ = 2 ^ (n.log2 + 1 + (52 - n.log2)) := (Nat.pow_add ..).symm
        _ = 2 * leastNormal := by rw [show n.log2 + 1 + (52 - n.log2) = 53 by omega]; rfl
    rw [exact_eq, if_neg (Nat.ne_of_lt below), if_neg (by unfold maxExponent; omega)]
    refine ⟨_, _, rfl, ?_⟩
    rw [nearest_of_lt small', show ((n.log2 : Int) - 52).toNat = 0 by omega,
      show (-((n.log2 : Int) - 52)).toNat = 52 - n.log2 by omega, Nat.pow_zero, Nat.mul_one]
  · -- with 54 bits the last one is rounded off
    have bits_eq : n.log2 = 53 := by omega
    have large : ¬ n < 0x20000000000000 := fun small' => short ((Nat.log2_lt zero_eq).mpr small')
    have half_eq : roundQuotient (scaled (n * 2 ^ k) (2 ^ k) ((n.log2 : Int) - 52)).1
        (scaled (n * 2 ^ k) (2 ^ k) ((n.log2 : Int) - 52)).2 = roundQuotient n 2 := by
      rw [bits_eq, scaled, if_neg (by decide)]
      change roundQuotient (n * 2 ^ k) (2 ^ k <<< 1) = _
      rw [Nat.shiftLeft_eq, Nat.pow_one, Nat.mul_comm (2 ^ k) 2]
      exact roundQuotient_mul_right n 2 power
    rw [half_eq, bits_eq]
    split
    · rename_i carry
      rw [if_neg (by decide)]
      refine ⟨_, _, rfl, ?_⟩
      rw [nearest, if_neg large, carry]
      rfl
    · dsimp only
      rw [if_neg (by decide)]
      refine ⟨_, _, rfl, ?_⟩
      rw [nearest, if_neg large]
      change roundQuotient n 2 * 2 ^ 1 = 2 * roundQuotient n 2 * 2 ^ 0
      omega

theorem ofNat_whole (small : n < 0x40000000000000) : (ofNat n).IsWhole (nearest n) := by
  have whole := ofRatio_whole 0 small
  rwa [Nat.pow_zero, Nat.mul_one] at whole

/-- At an exponent that is no greater, the mantissa is the greater. -/
theorem shift_mantissa {m : Nat} {e least : Int} (value : m * 2 ^ e.toNat = n * 2 ^ (-e).toNat)
    (order : least ≤ e) :
    m <<< (e - least).toNat * 2 ^ least.toNat = n * 2 ^ (-least).toNat := by
  have exponents : (e - least).toNat + least.toNat + (-e).toNat = e.toNat + (-least).toNat := by omega
  apply Nat.eq_of_mul_eq_mul_right (Nat.two_pow_pos (-e).toNat)
  calc m <<< (e - least).toNat * 2 ^ least.toNat * 2 ^ (-e).toNat
      = m * 2 ^ ((e - least).toNat + least.toNat + (-e).toNat) := by
        rw [Nat.shiftLeft_eq, Nat.pow_add, Nat.pow_add, ← Nat.mul_assoc, ← Nat.mul_assoc]
    _ = m * 2 ^ e.toNat * 2 ^ (-least).toNat := by rw [exponents, Nat.pow_add, Nat.mul_assoc]
    _ = n * 2 ^ (-least).toNat * 2 ^ (-e).toNat := by rw [value, Nat.mul_right_comm]

/-- Two whole numbers are compared at the lesser of their exponents. -/
theorem lt_whole (first : x.IsWhole a) (second : y.IsWhole b) : x.lt y = decide (a < b) := by
  obtain ⟨m₁, e₁, rfl, value₁⟩ := first
  obtain ⟨m₂, e₂, rfl, value₂⟩ := second
  simp only [lt]
  generalize least_eq : (if e₁ ≤ e₂ then e₁ else e₂) = least
  have order : least ≤ e₁ ∧ least ≤ e₂ := by
    split at least_eq <;> omega
  have shifted₁ := shift_mantissa value₁ order.1
  have shifted₂ := shift_mantissa value₂ order.2
  have power := Nat.two_pow_pos least.toNat
  have power' := Nat.two_pow_pos (-least).toNat
  have compare : m₁ <<< (e₁ - least).toNat < m₂ <<< (e₂ - least).toNat ↔ a < b := by
    rw [← Nat.mul_lt_mul_right power, shifted₁, shifted₂, Nat.mul_lt_mul_right power']
  simp only [signed, Bool.false_eq_true, if_false, Int.ofNat_lt, compare]

theorem le_whole (first : x.IsWhole a) (second : y.IsWhole b) : x.le y = decide (a ≤ b) := by
  have less := lt_whole first second
  have greater := lt_whole second first
  obtain ⟨m₁, e₁, rfl, -⟩ := first
  obtain ⟨m₂, e₂, rfl, -⟩ := second
  simp only [le, eq, less, greater]
  by_cases order : a < b
  · simp [order, Nat.le_of_lt order]
  · have same : a ≤ b ↔ ¬ b < a := Nat.not_lt.symm
    simp only [order, same, decide_false, Bool.not_false, Bool.true_and, Bool.false_or, decide_not]

/-- A sum of at most 54 bits is rounded once. -/
theorem add_whole (first : x.IsWhole a) (second : y.IsWhole b) (small : a + b < 0x40000000000000) :
    (x.add y).IsWhole (nearest (a + b)) := by
  obtain ⟨m₁, e₁, rfl, value₁⟩ := first
  obtain ⟨m₂, e₂, rfl, value₂⟩ := second
  simp only [add]
  generalize least_eq : (if e₁ ≤ e₂ then e₁ else e₂) = least
  have order : least ≤ e₁ ∧ least ≤ e₂ := by
    split at least_eq <;> omega
  have sum_eq : (m₁ <<< (e₁ - least).toNat + m₂ <<< (e₂ - least).toNat) * 2 ^ least.toNat =
      (a + b) * 2 ^ (-least).toNat := by
    rw [Nat.add_mul, shift_mantissa value₁ order.1, shift_mantissa value₂ order.2, Nat.add_mul]
  generalize m₁ <<< (e₁ - least).toNat = s₁ at sum_eq ⊢
  generalize m₂ <<< (e₂ - least).toNat = s₂ at sum_eq ⊢
  simp only [signed, Bool.false_eq_true, if_false, Bool.and_false]
  split
  · rename_i nothing
    have none : a + b = 0 := by
      have empty : s₁ + s₂ = 0 := by omega
      rw [empty, Nat.zero_mul] at sum_eq
      exact (Nat.mul_eq_zero.mp sum_eq.symm).resolve_right (Nat.ne_of_gt (Nat.two_pow_pos _))
    rw [none]
    exact ⟨0, minExponent, rfl, by rw [nearest_of_lt (by decide)]; simp⟩
  · have positive : decide (((s₁ : Int) + s₂) < 0) = false := by
      rw [decide_eq_false_iff_not]
      omega
    have size : ((s₁ : Int) + s₂).natAbs = s₁ + s₂ := by omega
    rw [positive, size]
    split
    · rename_i negative
      have whole := ofRatio_whole (-least).toNat small
      rw [show least.toNat = 0 by omega, Nat.pow_zero, Nat.mul_one] at sum_eq
      rw [show least.natAbs = (-least).toNat by omega, Nat.one_shiftLeft, sum_eq]
      exact whole
    · have whole := ofRatio_whole 0 small
      rw [show (-least).toNat = 0 by omega, Nat.pow_zero, Nat.mul_one] at sum_eq
      rw [show least.natAbs = least.toNat by omega, Nat.shiftLeft_eq, sum_eq]
      rwa [Nat.pow_zero, Nat.mul_one] at whole

/-- Nothing is cut off a whole number. -/
theorem truncate_whole (whole : x.IsWhole n) : x.truncate = n := by
  obtain ⟨m, e, rfl, value⟩ := whole
  simp only [truncate, signed, Bool.false_eq_true, if_false]
  split
  · rename_i negative
    rw [show e.toNat = 0 by omega, Nat.pow_zero, Nat.mul_one] at value
    rw [show e.natAbs = (-e).toNat by omega, value, Nat.shiftRight_eq_div_pow,
      Nat.mul_div_cancel _ (Nat.two_pow_pos _)]
  · rw [show (-e).toNat = 0 by omega, Nat.pow_zero, Nat.mul_one] at value
    rw [show e.natAbs = e.toNat by omega, Nat.shiftLeft_eq, value]

theorem ofInt_whole {n : Int} (positive : 0 ≤ n) (small : n < 0x20000000000000) :
    (ofInt n).IsWhole n.toNat := by
  have sign : decide (n < 0) = false := by
    rw [decide_eq_false_iff_not]
    omega
  have whole := ofNat_whole (n := n.toNat) (by omega)
  rw [nearest_of_lt (by omega)] at whole
  rw [ofInt, sign, show n.natAbs = n.toNat by omega]
  exact whole

/-- Digits without a point and an exponent stand for the whole number next to them. -/
theorem ofDecimal_whole (small : n < 0x40000000000000) : (ofDecimal false n 0).IsWhole (nearest n) := by
  have whole := ofNat_whole small
  rw [ofDecimal]
  split
  · rename_i zero_eq
    subst n
    exact ⟨0, minExponent, rfl, by rw [nearest_of_lt (by decide)]; simp⟩
  · have small : n < 10 ^ 17 := by omega
    have short := Text.length_numeral_le (by decide) small
    rw [Text.numeral] at short
    dsimp only
    rw [if_neg (by omega), if_neg (by omega), if_neg (by decide)]
    have unit : Nat.pow 10 (Int.natAbs 0) = 1 := rfl
    rw [unit, Nat.mul_one]
    exact whole

end Binary64

end TaskLease
