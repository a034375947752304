import Mathlib.Algebra.Order.Field.Power
import Mathlib.Algebra.Order.Field.Rat
import Mathlib.Tactic.FieldSimp
import Mathlib.Tactic.Linarith
import Mathlib.Tactic.NormNum
import Mathlib.Tactic.Positivity
import Mathlib.Tactic.Ring
import TaskLease.Number.Binary64

/-!
# Rounding to double precision

`IsNearest` says which number a quantity is rounded to: no finite number is nearer, and of two that are equally near it
is the one with an even mantissa. A ratio that is not too great is rounded so (`ofRatio_nearest`), and with it whole
numbers and their quotients (`ofNat_nearest`, `divNat_nearest`).

Rounding takes the multiple of a unit that is nearest to the ratio (`roundQuotient_nearest`). No other number can be
nearer: each is a multiple of the unit as well, or it has a smaller unit and lies below all quantities with the greater
one (`multiple_or_below`).
-/

namespace TaskLease

namespace Binary64

/-- A number of the format that is finite: it has 53 bits, and fewer only at the least exponent. -/
def IsFinite : Binary64 → Prop
  | .finite _ m e => m < 2 ^ 53 ∧ -1074 ≤ e ∧ e ≤ 971 ∧ (2 ^ 52 ≤ m ∨ e = -1074)
  | .infinite _ | .nan => False

/-- What a finite number stands for. -/
def value : Binary64 → ℚ
  | .finite negative m e => (if negative then -1 else 1) * m * 2 ^ e
  | .infinite _ | .nan => 0

/-- The mantissa of a finite number. -/
def mantissa : Binary64 → Nat
  | .finite _ m _ => m
  | .infinite _ | .nan => 0

/-- A quantity is rounded to a number. -/
structure IsNearest (x : Binary64) (q : ℚ) : Prop where
  finite : x.IsFinite
  least : ∀ y : Binary64, y.IsFinite → |x.value - q| ≤ |y.value - q|
  /-- Of two numbers that are equally near, the even one is taken. -/
  even : ∀ y : Binary64, y.IsFinite → y.value ≠ x.value → |y.value - q| = |x.value - q| → x.mantissa % 2 = 0

/-- The unit in which a quantity has 53 bits before the point, or fewer if the unit is the least one. -/
structure HasUnit (q : ℚ) (e : Int) : Prop where
  least : -1074 ≤ e
  upper : q < 2 ^ (e + 53)
  lower : 2 ^ (e + 52) ≤ q ∨ e = -1074

/-- The multiple of a unit that is nearest to a quantity, the even one of two. -/
structure NearestMultiple (q : ℚ) (e : Int) (m : Nat) : Prop where
  least : ∀ n : Int, |m * 2 ^ e - q| ≤ |n * 2 ^ e - q|
  even : ∀ n : Int, n ≠ m → |n * 2 ^ e - q| = |m * 2 ^ e - q| → m % 2 = 0

/-! ## The nearest multiple -/

/-- No multiple of `den` is nearer to `num` than the rounded quotient, and only an even one has another that is as
near. -/
theorem roundQuotient_nearest (num : Nat) {den : Nat} (positive : 0 < den) (n : Int) :
    ((roundQuotient num den : Int) * den - num).natAbs ≤ (n * den - num).natAbs ∧
      (n ≠ roundQuotient num den → (n * den - num).natAbs = ((roundQuotient num den : Int) * den - num).natAbs →
        roundQuotient num den % 2 = 0) := by
  have whole : (num : Int) = (num / den : Nat) * den + (num % den : Nat) := by
    exact_mod_cast (Nat.div_add_mod' num den).symm
  have rest := Nat.mod_lt num positive
  -- Counted from the quotient, only the multiples 0 and 1 can be the nearest one.
  obtain ⟨k, rfl⟩ : ∃ k : Int, n = (num / den : Nat) + k := ⟨n - (num / den : Nat), by omega⟩
  have off (k : Int) : ((num / den : Nat) + k) * den - num = k * den - (num % den : Nat) := by
    rw [Int.add_mul]
    omega
  have side : k * den ≤ -den ∨ k = 0 ∨ k = 1 ∨ 2 * den ≤ k * den := by
    rcases Int.lt_or_le k 0 with below | above
    · left
      nlinarith
    · rcases Int.lt_or_le k 2 with near | far
      · omega
      · right; right; right
        nlinarith
  unfold roundQuotient
  dsimp only
  split
  · rename_i up
    have last := off 1
    rw [← Nat.cast_add_one] at last
    rw [off, last]
    rcases side with below | rfl | rfl | above <;> omega
  · rename_i down
    have last := off 0
    rw [Int.add_zero] at last
    rw [off, last]
    rcases side with below | rfl | rfl | above <;> omega

/-! ## The unit -/

theorem unit_add (e k : Int) : (2 : ℚ) ^ (e + k) = 2 ^ k * 2 ^ e := by
  rw [zpow_add₀ (by norm_num), mul_comm]

section

variable {num den m : Nat} {e : Int} {q : ℚ}

/-- A ratio in units of a power of two, as the ratio of two other numbers. -/
theorem scaled_value (num : Nat) (positive : 0 < den) (e : Int) :
    0 < (scaled num den e).2 ∧ ((scaled num den e).1 : ℚ) / (scaled num den e).2 = num / den / 2 ^ e := by
  have nonzero : (den : ℚ) ≠ 0 := Nat.cast_ne_zero.mpr (Nat.ne_of_gt positive)
  unfold scaled
  split
  · rename_i negative
    obtain ⟨k, rfl⟩ : ∃ k : Nat, e = -k := ⟨e.natAbs, by omega⟩
    have power : ((num <<< (-(k : Int)).natAbs : Nat) : ℚ) = num * 2 ^ k := by
      rw [Int.natAbs_neg, Int.natAbs_natCast, Nat.shiftLeft_eq, Nat.cast_mul, Nat.cast_pow, Nat.cast_ofNat]
    refine ⟨positive, ?_⟩
    rw [power, zpow_neg, zpow_natCast]
    field_simp
  · obtain ⟨k, rfl⟩ : ∃ k : Nat, e = k := ⟨e.natAbs, by omega⟩
    have power : ((den <<< (k : Int).natAbs : Nat) : ℚ) = den * 2 ^ k := by
      rw [Int.natAbs_natCast, Nat.shiftLeft_eq, Nat.cast_mul, Nat.cast_pow, Nat.cast_ofNat]
    refine ⟨?_, ?_⟩
    · rw [Nat.shiftLeft_eq]
      exact Nat.mul_pos positive (Nat.two_pow_pos _)
    · rw [power, zpow_natCast]
      field_simp

/-- What the lengths of two numbers say about their ratio. -/
theorem ratio_bounds (nonzero : num ≠ 0) (positive : 0 < den) :
    (2 : ℚ) ^ ((num.log2 : Int) - den.log2 - 1) ≤ num / den ∧ (num / den : ℚ) < 2 ^ ((num.log2 : Int) - den.log2 + 1) := by
  have den_pos : (0 : ℚ) < den := Nat.cast_pos.mpr positive
  have num_bounds : (2 : ℚ) ^ (num.log2 : Int) ≤ num ∧ (num : ℚ) < 2 ^ ((num.log2 : Int) + 1) := by
    constructor
    · exact_mod_cast Nat.log2_self_le nonzero
    · exact_mod_cast Nat.lt_log2_self
  have den_bounds : (2 : ℚ) ^ (den.log2 : Int) ≤ den ∧ (den : ℚ) < 2 ^ ((den.log2 : Int) + 1) := by
    constructor
    · exact_mod_cast Nat.log2_self_le (Nat.ne_of_gt positive)
    · exact_mod_cast Nat.lt_log2_self
  rw [le_div_iff₀ den_pos, div_lt_iff₀ den_pos]
  constructor
  · calc (2 : ℚ) ^ ((num.log2 : Int) - den.log2 - 1) * den
        ≤ 2 ^ ((num.log2 : Int) - den.log2 - 1) * 2 ^ ((den.log2 : Int) + 1) :=
          mul_le_mul_of_nonneg_left (le_of_lt den_bounds.2) (by positivity)
      _ = 2 ^ (num.log2 : Int) := by
        rw [← unit_add]
        congr 1
        omega
      _ ≤ num := num_bounds.1
  · calc (num : ℚ) < 2 ^ ((num.log2 : Int) + 1) := num_bounds.2
      _ = 2 ^ ((num.log2 : Int) - den.log2 + 1) * 2 ^ (den.log2 : Int) := by
        rw [← unit_add]
        congr 1
        omega
      _ ≤ 2 ^ ((num.log2 : Int) - den.log2 + 1) * den := mul_le_mul_of_nonneg_left den_bounds.1 (by positivity)

/-- Whether the ratio has fewer than 53 bits before the point. -/
theorem scaled_lt_iff (num : Nat) (positive : 0 < den) (e : Int) :
    (scaled num den e).1 / (scaled num den e).2 < leastNormal ↔ (num / den : ℚ) < 2 ^ (e + 52) := by
  obtain ⟨scaled_pos, same⟩ := scaled_value num positive e
  have scaled_pos' : (0 : ℚ) < (scaled num den e).2 := Nat.cast_pos.mpr scaled_pos
  have normal : (leastNormal : ℚ) = 2 ^ (52 : Int) := by norm_num [leastNormal]
  rw [Nat.div_lt_iff_lt_mul scaled_pos, ← Nat.cast_lt (α := ℚ), Nat.cast_mul, ← div_lt_iff₀ scaled_pos', same, normal,
    div_lt_iff₀ (by positivity), ← unit_add]

/-- A unit that is less than the least one is replaced by it, and then there are fewer bits. -/
theorem hasUnit_of_bits (lower : 2 ^ (e + 52) ≤ q) (upper : q < 2 ^ (e + 53)) :
    HasUnit q (if e < minExponent then minExponent else e) := by
  have least : minExponent = -1074 := rfl
  split
  · have more : (2 : ℚ) ^ (e + 53) ≤ 2 ^ (minExponent + 53) := zpow_le_zpow_right₀ (by norm_num) (by omega)
    exact ⟨Int.le_of_eq least.symm, upper.trans_le more, .inr least⟩
  · exact ⟨by omega, upper, .inl lower⟩

/-- A ratio has the exponent of the unit that it is rounded to. -/
theorem hasUnit_exponentOf (nonzero : num ≠ 0) (positive : 0 < den) : HasUnit (num / den) (exponentOf num den) := by
  obtain ⟨lower, upper⟩ := ratio_bounds nonzero positive
  unfold exponentOf
  dsimp only
  -- The lengths leave two exponents; the first of them is tried.
  obtain ⟨guess, guess_eq⟩ : ∃ guess : Int, (num.log2 : Int) - den.log2 - 52 = guess := ⟨_, rfl⟩
  rw [guess_eq]
  rw [show (num.log2 : Int) - den.log2 - 1 = guess + 51 by omega] at lower
  rw [show (num.log2 : Int) - den.log2 + 1 = guess + 53 by omega] at upper
  by_cases short : (num / den : ℚ) < 2 ^ (guess + 52)
  · rw [if_pos ((scaled_lt_iff num positive guess).mpr short)]
    refine hasUnit_of_bits ?_ ?_
    · rwa [show guess - 1 + 52 = guess + 51 by omega]
    · rwa [show guess - 1 + 53 = guess + 52 by omega]
  · rw [if_neg (mt (scaled_lt_iff num positive guess).mp short)]
    exact hasUnit_of_bits (not_lt.mp short) upper

/-- Every finite number is a multiple of a unit, or lies below all numbers of 53 bits that are. -/
theorem multiple_or_below {y : Binary64} (finite : y.IsFinite) (e : Int) :
    (∃ n : Int, y.value = n * 2 ^ e) ∨ (-1074 < e ∧ y.value < 2 ^ (e + 52)) := by
  cases y with
  | infinite _ | nan => exact finite.elim
  | finite negative m e' =>
    obtain ⟨small, least, -⟩ := finite
    rcases Int.lt_or_le e' e with below | above
    · right
      refine ⟨by omega, ?_⟩
      have size : (m : ℚ) < 2 ^ (53 : Int) := by exact_mod_cast small
      calc value (.finite negative m e') ≤ m * 2 ^ e' := by
            have forward : (0 : ℚ) ≤ m * 2 ^ e' := by positivity
            cases negative
            · simp [value]
            · simp only [value, if_true]
              linarith
        _ < 2 ^ (53 : Int) * 2 ^ e' := mul_lt_mul_of_pos_right size (by positivity)
        _ = 2 ^ (e' + 53) := (unit_add e' 53).symm
        _ ≤ 2 ^ (e + 52) := zpow_le_zpow_right₀ (by norm_num) (by omega)
    · left
      obtain ⟨k, rfl⟩ : ∃ k : Nat, e' = e + k := ⟨(e' - e).toNat, by omega⟩
      refine ⟨(if negative then -1 else 1) * m * 2 ^ k, ?_⟩
      rw [value, unit_add, zpow_natCast]
      push_cast
      ring

theorem nearestMultiple_roundQuotient (num : Nat) (positive : 0 < den) (e : Int) :
    NearestMultiple (num / den) e (roundQuotient (scaled num den e).1 (scaled num den e).2) := by
  obtain ⟨scaled_pos, same⟩ := scaled_value num positive e
  generalize (scaled num den e).1 = a at same ⊢
  generalize (scaled num den e).2 = b at scaled_pos same ⊢
  have unit_pos : (0 : ℚ) < 2 ^ e := by positivity
  have b_pos : (0 : ℚ) < b := Nat.cast_pos.mpr scaled_pos
  have ratio : (num / den : ℚ) = a / b * 2 ^ e := by rw [same, div_mul_cancel₀ _ (ne_of_gt unit_pos)]
  have distance (n : Int) : |(n * 2 ^ e - num / den : ℚ)| = (n * b - a).natAbs * (2 ^ e / b) := by
    have factor : (n * 2 ^ e - num / den : ℚ) = ((n * b - a : Int) : ℚ) * (2 ^ e / b) := by
      rw [ratio]
      push_cast
      field_simp
    rw [factor, abs_mul, abs_of_pos (div_pos unit_pos b_pos), Nat.cast_natAbs, Int.cast_abs]
  have own := distance (roundQuotient a b)
  rw [Int.cast_natCast] at own
  constructor
  · intro n
    rw [own, distance n]
    exact mul_le_mul_of_nonneg_right (Nat.cast_le.mpr (roundQuotient_nearest a scaled_pos n).1) (by positivity)
  · intro n other tie
    rw [own, distance n, mul_left_inj' (by positivity), Nat.cast_inj] at tie
    exact (roundQuotient_nearest a scaled_pos n).2 other tie

/-- The nearest multiple has at most one bit more than the numbers of the format, and then it is a power of two. -/
theorem NearestMultiple.bounds (nearest : NearestMultiple q e m) (unit : HasUnit q e) :
    m ≤ 2 ^ 53 ∧ (2 ^ 52 ≤ m ∨ e = -1074) := by
  have unit_pos : (0 : ℚ) < 2 ^ e := by positivity
  constructor
  · by_contra! above
    have far : ((2 ^ 53 + 1 : Nat) : ℚ) * 2 ^ e ≤ m * 2 ^ e :=
      mul_le_mul_of_nonneg_right (Nat.cast_le.mpr above) (le_of_lt unit_pos)
    have upper := unit.upper
    rw [unit_add] at upper
    have near := nearest.least (2 ^ 53)
    push_cast at far near
    rw [abs_of_pos (by linarith), abs_of_pos (by linarith)] at near
    linarith
  · refine unit.lower.imp_left fun lower => ?_
    by_contra! below
    have far : (m : ℚ) * 2 ^ e < (2 ^ 52 : Nat) * 2 ^ e := mul_lt_mul_of_pos_right (Nat.cast_lt.mpr below) unit_pos
    rw [unit_add] at lower
    have near := nearest.least (2 ^ 52)
    push_cast at far near
    rw [abs_of_neg (by linarith), abs_of_nonpos (by linarith)] at near
    linarith

/-- No finite number is nearer than the nearest multiple. -/
theorem NearestMultiple.isNearest (nearest : NearestMultiple q e m) (unit : HasUnit q e) {x : Binary64}
    (finite : x.IsFinite) (same : x.value = m * 2 ^ e) (even : m % 2 = 0 → x.mantissa % 2 = 0) : x.IsNearest q := by
  -- A number with a smaller unit is farther than the least number of 53 bits.
  have farther {y : Binary64} (inside : -1074 < e) (below : y.value < 2 ^ (e + 52)) : |x.value - q| < |y.value - q| := by
    have lower := unit.lower.resolve_right (by omega)
    rw [unit_add] at lower below
    have edge : |(2 ^ 52 : Int) * 2 ^ e - q| = q - 2 ^ 52 * 2 ^ e := by
      push_cast
      rw [abs_of_nonpos (by linarith)]
      ring
    calc |x.value - q| ≤ |(2 ^ 52 : Int) * 2 ^ e - q| := by
          rw [same]
          exact nearest.least (2 ^ 52)
      _ = q - 2 ^ 52 * 2 ^ e := edge
      _ < q - y.value := by linarith
      _ ≤ |q - y.value| := le_abs_self _
      _ = |y.value - q| := abs_sub_comm ..
  refine ⟨finite, fun y y_finite => ?_, fun y y_finite other tie => ?_⟩
  · rcases multiple_or_below y_finite e with ⟨n, y_eq⟩ | ⟨inside, below⟩
    · rw [same, y_eq]
      exact nearest.least n
    · exact le_of_lt (farther inside below)
  · rcases multiple_or_below y_finite e with ⟨n, y_eq⟩ | ⟨inside, below⟩
    · rw [same, y_eq] at tie
      refine even (nearest.even n ?_ tie)
      rintro rfl
      exact other (by rw [y_eq, same, Int.cast_natCast])
    · exact absurd tie (ne_of_gt (farther inside below))

/-! ## Numbers -/

theorem isFinite_zero (negative : Bool) : (zero negative).IsFinite := ⟨by norm_num, by decide, by decide, .inr rfl⟩

@[simp] theorem value_zero (negative : Bool) : (zero negative).value = 0 := by simp [zero, value]

theorem isNearest_zero : (zero false).IsNearest 0 where
  finite := isFinite_zero false
  least _ _ := by simp
  even _ _ _ _ := rfl

/-- Where a ratio is not too great, it is given as the number that it is rounded to. -/
theorem ofRatio_nearest (positive : 0 < den) (small : (num / den : ℚ) < 2 ^ (1023 : Int)) :
    ∃ m e, ofRatio false num den = .finite false m e ∧ IsNearest (.finite false m e) (num / den) := by
  by_cases zero_eq : num = 0
  · subst num
    rw [Nat.cast_zero, zero_div]
    exact ⟨0, minExponent, if_pos rfl, isNearest_zero⟩
  have unit := hasUnit_exponentOf zero_eq positive
  have nearest := nearestMultiple_roundQuotient num positive (exponentOf num den)
  have low : exponentOf num den ≤ 970 := by
    rcases unit.lower with lower | least
    · have := (zpow_lt_zpow_iff_right₀ (by norm_num)).mp (lower.trans_lt small)
      omega
    · omega
  rw [ofRatio, if_neg zero_eq]
  dsimp only
  generalize exponentOf num den = e at unit nearest low ⊢
  generalize roundQuotient _ _ = m at nearest ⊢
  obtain ⟨most, bits⟩ := nearest.bounds unit
  have least := unit.least
  have last : maxExponent = 971 := rfl
  by_cases carry : m = 2 * leastNormal
  · rw [if_pos carry, if_neg (by dsimp only; omega)]
    have normal : leastNormal < 2 ^ 53 ∧ 2 ^ 52 ≤ leastNormal ∧ leastNormal % 2 = 0 := by decide
    refine ⟨_, _, rfl, nearest.isNearest unit ?_ ?_ fun _ => normal.2.2⟩
    · exact ⟨normal.1, by omega, by omega, .inl normal.2.1⟩
    · rw [value, carry, unit_add e 1]
      push_cast
      ring
  · rw [if_neg carry, if_neg (by dsimp only; omega)]
    refine ⟨_, _, rfl, nearest.isNearest unit ?_ ?_ id⟩
    · have normal : leastNormal = 2 ^ 52 := rfl
      exact ⟨by omega, by omega, by omega, bits⟩
    · simp [value]

/-- A number that is nearest to something is at most twice as great. -/
theorem IsNearest.value_le {x : Binary64} (near : x.IsNearest q) (forward : 0 ≤ q) : x.value ≤ 2 * q := by
  have least := near.least _ (isFinite_zero false)
  rw [value_zero, zero_sub, abs_neg, abs_of_nonneg forward] at least
  linarith [le_abs_self (x.value - q)]

theorem ofNat_nearest {n : Nat} (small : (n : ℚ) < 2 ^ (1023 : Int)) :
    ∃ m e, ofNat n = .finite false m e ∧ IsNearest (.finite false m e) n := by
  have rounded : ∃ m e, ofRatio false n 1 = .finite false m e ∧ IsNearest (.finite false m e) (n / (1 : Nat)) :=
    ofRatio_nearest Nat.one_pos (by simpa using small)
  simpa [ofNat] using rounded

/-- A quotient is the ratio of two numbers that are scaled the other way. -/
theorem divNat_eq (negative : Bool) (m : Nat) (e : Int) (d : Nat) :
    (Binary64.finite negative m e).divNat d = ofRatio negative (scaled m d (-e)).1 (scaled m d (-e)).2 := by
  rw [divNat, scaled]
  rcases lt_trichotomy e 0 with below | rfl | above
  · rw [if_pos below, if_neg (by omega), Int.natAbs_neg]
  · rfl
  · rw [if_neg (by omega), if_pos (by omega), Int.natAbs_neg]

theorem divNat_nearest {d : Nat} (positive : 0 < d)
    (small : (value (.finite false m e) / d : ℚ) < 2 ^ (1023 : Int)) :
    IsNearest ((Binary64.finite false m e).divNat d) (value (.finite false m e) / d) := by
  obtain ⟨scaled_pos, same⟩ := scaled_value m positive (-e)
  have ratio : (value (.finite false m e) / d : ℚ) = (scaled m d (-e)).1 / (scaled m d (-e)).2 := by
    rw [same, value, zpow_neg]
    simp only [Bool.false_eq_true, if_false]
    field_simp
  rw [ratio] at small ⊢
  obtain ⟨_, _, rounded, near⟩ := ofRatio_nearest scaled_pos small
  rwa [divNat_eq, rounded]

end

end Binary64

end TaskLease
