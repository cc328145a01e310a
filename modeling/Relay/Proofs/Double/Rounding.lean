import Mathlib.Algebra.Order.Field.Power
import Mathlib.Data.Rat.Cast.Order
import Mathlib.Tactic.FieldSimp
import Mathlib.Tactic.Linarith
import Mathlib.Tactic.NormNum
import Mathlib.Tactic.Positivity
import Mathlib.Tactic.Ring
import Relay.Double

namespace Relay

/-! Rounding to binary numbers in exact arithmetic. A positive fraction lies between two
powers of two that follow each other; its nearest binary number is that many units in the
last place, so that it differs from the fraction by half a unit at most. The fraction is out
of range exactly if it is at least the middle between the greatest number and the next
power of two. -/

namespace Fraction

def value (fraction : Fraction) : ℚ := fraction.numerator / fraction.denominator

structure IsPositive (fraction : Fraction) : Prop where
  numerator : 0 < fraction.numerator
  denominator : 0 < fraction.denominator

theorem isPositive_of_value_pos {fraction : Fraction} (positive : 0 < fraction.value) :
    fraction.IsPositive := by
  constructor
  · apply Nat.pos_of_ne_zero
    intro isZero
    simp [value, isZero] at positive
  · apply Nat.pos_of_ne_zero
    intro isZero
    simp [value, isZero] at positive

@[simp] theorem value_ofNat (number : Nat) : (ofNat number).value = number := by
  simp [value]

theorem value_mul (left right : Fraction) : (left.mul right).value = left.value * right.value := by
  simp only [value, mul, Nat.cast_mul]
  exact (div_mul_div_comm _ _ _ _).symm

theorem value_div (left right : Fraction) : (left.div right).value = left.value / right.value := by
  simp only [value, div, Nat.cast_mul]
  exact (div_div_div_eq _ _ _ _).symm

theorem value_scale (fraction : Fraction) (base : Nat) (exponent : Int) :
    (fraction.scale base exponent).value = fraction.value * (base : ℚ) ^ exponent := by
  cases exponent with
  | ofNat exponent =>
      simp only [value, scale, Int.ofNat_eq_natCast, zpow_natCast, Nat.cast_mul, Nat.pow_eq,
        Nat.cast_pow]
      ring
  | negSucc exponent =>
      simp only [value, scale, zpow_negSucc, Nat.cast_mul, Nat.pow_eq, Nat.cast_pow]
      ring

theorem scale_denominator_pos {fraction : Fraction} (positive : 0 < fraction.denominator)
    {base : Nat} (basePositive : 0 < base) (exponent : Int) :
    0 < (fraction.scale base exponent).denominator := by
  cases exponent with
  | ofNat exponent => exact positive
  | negSucc exponent => exact Nat.mul_pos positive (Nat.pow_pos basePositive)

theorem IsPositive.scale {fraction : Fraction} (positive : fraction.IsPositive) {base : Nat}
    (basePositive : 0 < base) (exponent : Int) : (fraction.scale base exponent).IsPositive where
  numerator := by
    cases exponent with
    | ofNat exponent => exact Nat.mul_pos positive.numerator (Nat.pow_pos basePositive)
    | negSucc exponent => exact positive.numerator
  denominator := scale_denominator_pos positive.denominator basePositive exponent

/-! ## Whole numbers -/

theorem value_eq (fraction : Fraction) (positive : 0 < fraction.denominator) :
    fraction.value = (fraction.numerator / fraction.denominator : Nat) +
      (fraction.numerator % fraction.denominator : Nat) / fraction.denominator := by
  have denominator : (fraction.denominator : ℚ) ≠ 0 := by
    exact_mod_cast positive.ne'
  have parts := Nat.div_add_mod fraction.numerator fraction.denominator
  have parts : (fraction.denominator : ℚ) * (fraction.numerator / fraction.denominator : Nat) +
      (fraction.numerator % fraction.denominator : Nat) = fraction.numerator := by
    exact_mod_cast parts
  rw [value, ← parts]
  field_simp

theorem roundEven_cases (fraction : Fraction) :
    let below := fraction.numerator / fraction.denominator
    let remainder := fraction.numerator % fraction.denominator
    2 * remainder < fraction.denominator ∧ fraction.roundEven = below ∨
      fraction.denominator < 2 * remainder ∧ fraction.roundEven = below + 1 ∨
      2 * remainder = fraction.denominator ∧ fraction.roundEven = below + below % 2 := by
  intro below remainder
  rcases Nat.lt_trichotomy (2 * remainder) fraction.denominator with less | same | greater
  · exact .inl ⟨less, by rw [roundEven, compareHalf, Nat.compare_eq_lt.mpr less]⟩
  · exact .inr (.inr ⟨same, by rw [roundEven, compareHalf, Nat.compare_eq_eq.mpr same]⟩)
  · exact .inr (.inl ⟨greater, by rw [roundEven, compareHalf, Nat.compare_eq_gt.mpr greater]⟩)

section Rounded

variable {fraction : Fraction}

/-- The remainder lies on one side of one half, and the rounding goes to that side. A half
goes to the even number. -/
theorem exists_remainder (positive : 0 < fraction.denominator) :
    ∃ (below : Nat) (remainder : ℚ), fraction.value = below + remainder ∧ 0 ≤ remainder ∧
      remainder < 1 ∧
      (remainder < 1 / 2 ∧ fraction.roundEven = below ∨
        1 / 2 < remainder ∧ fraction.roundEven = below + 1 ∨
        remainder = 1 / 2 ∧ fraction.roundEven = below + below % 2) := by
  have denominator : (0 : ℚ) < fraction.denominator := by exact_mod_cast positive
  have small : (fraction.numerator % fraction.denominator : Nat) < (fraction.denominator : ℚ) := by
    exact_mod_cast Nat.mod_lt _ positive
  refine ⟨_, _, value_eq fraction positive, by positivity, (div_lt_one denominator).mpr small, ?_⟩
  rcases fraction.roundEven_cases with ⟨less, rounded⟩ | ⟨greater, rounded⟩ | ⟨same, rounded⟩
  · refine .inl ⟨?_, rounded⟩
    rw [div_lt_iff₀ denominator]
    have less : 2 * ((fraction.numerator % fraction.denominator : Nat) : ℚ) <
      fraction.denominator := by exact_mod_cast less
    linarith
  · refine .inr (.inl ⟨?_, rounded⟩)
    rw [lt_div_iff₀ denominator]
    have greater : (fraction.denominator : ℚ) <
      2 * (fraction.numerator % fraction.denominator : Nat) := by exact_mod_cast greater
    linarith
  · refine .inr (.inr ⟨?_, rounded⟩)
    rw [div_eq_iff denominator.ne']
    have same : 2 * ((fraction.numerator % fraction.denominator : Nat) : ℚ) =
      fraction.denominator := by exact_mod_cast same
    linarith

theorem abs_roundEven_sub_le (positive : 0 < fraction.denominator) :
    |(fraction.roundEven : ℚ) - fraction.value| ≤ 1 / 2 := by
  rcases exists_remainder positive
    with ⟨below, remainder, same, from0, to1, ⟨side, rounded⟩ | ⟨side, rounded⟩ | ⟨side, rounded⟩⟩
  · rw [rounded, same, abs_le]
    constructor <;> linarith
  · rw [rounded, same, abs_le]
    push_cast
    constructor <;> linarith
  · have parity : ((below % 2 : Nat) : ℚ) ≤ 1 := by
      exact_mod_cast Nat.le_of_lt_succ (Nat.mod_lt below (by decide))
    have parityFrom : (0 : ℚ) ≤ ((below % 2 : Nat) : ℚ) := Nat.cast_nonneg _
    rw [rounded, same, abs_le]
    push_cast
    constructor <;> linarith

theorem roundEven_lt_iff (positive : 0 < fraction.denominator) {bound : Nat}
    (isEven : bound % 2 = 0) :
    fraction.roundEven < bound ↔ fraction.value < bound - 1 / 2 := by
  rcases exists_remainder positive
    with ⟨below, remainder, same, from0, to1, ⟨side, rounded⟩ | ⟨side, rounded⟩ | ⟨side, rounded⟩⟩
  · rw [rounded, same]
    constructor
    · intro less
      have less : (below : ℚ) + 1 ≤ bound := by exact_mod_cast less
      linarith
    · intro less
      have less : (below : ℚ) < bound := by linarith
      exact_mod_cast less
  · rw [rounded, same]
    constructor
    · intro less
      have less : (below : ℚ) + 1 + 1 ≤ bound := by exact_mod_cast less
      linarith
    · intro less
      have less : (below : ℚ) + 1 < bound := by linarith
      exact_mod_cast less
  · rw [rounded, same, side]
    constructor
    · intro less
      -- An odd number just below the bound would be rounded up to it.
      have far : below + 1 < bound := by omega
      have far : (below : ℚ) + 1 < bound := by exact_mod_cast far
      linarith
    · intro less
      have far : (below : ℚ) + 1 < bound := by linarith
      have far : below + 1 < bound := by exact_mod_cast far
      omega

theorem roundEven_le_two_mul (positive : 0 < fraction.denominator) :
    (fraction.roundEven : ℚ) ≤ 2 * fraction.value := by
  have near := abs_le.mp (abs_roundEven_sub_le positive)
  rcases Nat.eq_zero_or_pos fraction.roundEven with isZero | isPositive
  · have : 0 ≤ fraction.value := by
      unfold value
      positivity
    rw [isZero, Nat.cast_zero]
    linarith
  · have : (1 : ℚ) ≤ fraction.roundEven := by exact_mod_cast isPositive
    linarith [near.2]

end Rounded

/-! ## Powers of two -/

theorem log2_bounds {number : Nat} (positive : 0 < number) :
    (2 : ℚ) ^ (number.log2 : Int) ≤ number ∧ (number : ℚ) < 2 ^ ((number.log2 : Int) + 1) := by
  have low := Nat.log2_self_le positive.ne'
  have high := Nat.lt_log2_self (n := number)
  constructor
  · rw [zpow_natCast]
    exact_mod_cast low
  · rw [← Nat.cast_one, ← Nat.cast_add, zpow_natCast]
    exact_mod_cast high

section Exponent

variable {fraction : Fraction}

theorem log2_quotient_bounds (positive : fraction.IsPositive) {exponent : Int}
    (guess : (fraction.numerator.log2 : Int) - fraction.denominator.log2 = exponent) :
    2 ^ (exponent - 1) ≤ fraction.value ∧ fraction.value < 2 ^ (exponent + 1) := by
  rcases log2_bounds positive.numerator with ⟨numeratorLow, numeratorHigh⟩
  rcases log2_bounds positive.denominator with ⟨denominatorLow, denominatorHigh⟩
  have denominator : (0 : ℚ) < fraction.denominator := by exact_mod_cast positive.denominator
  constructor
  · rw [value, le_div_iff₀ denominator]
    calc (2 : ℚ) ^ (exponent - 1) * fraction.denominator
      _ ≤ 2 ^ (exponent - 1) * 2 ^ ((fraction.denominator.log2 : Int) + 1) := by gcongr
      _ = 2 ^ (fraction.numerator.log2 : Int) := by
          rw [← zpow_add₀ (by decide)]
          congr 1
          omega
      _ ≤ fraction.numerator := numeratorLow
  · rw [value, div_lt_iff₀ denominator]
    calc (fraction.numerator : ℚ) < 2 ^ ((fraction.numerator.log2 : Int) + 1) := numeratorHigh
      _ = 2 ^ (exponent + 1) * 2 ^ (fraction.denominator.log2 : Int) := by
          rw [← zpow_add₀ (by decide)]
          congr 1
          omega
      _ ≤ 2 ^ (exponent + 1) * fraction.denominator := by gcongr

theorem denominator_le_numerator_scale_iff (positive : fraction.IsPositive) (exponent : Int) :
    (fraction.scale 2 (-exponent)).denominator ≤ (fraction.scale 2 (-exponent)).numerator ↔
      2 ^ exponent ≤ fraction.value := by
  have scaled := fraction.value_scale 2 (-exponent)
  have denominator : (0 : ℚ) < (fraction.scale 2 (-exponent)).denominator := by
    exact_mod_cast (positive.scale (show 0 < 2 by decide) (-exponent)).denominator
  rw [← Nat.cast_le (α := ℚ), ← one_le_div denominator, ← value, scaled, zpow_neg,
    ← div_eq_mul_inv, Nat.cast_ofNat, one_le_div (zpow_pos (by decide) _)]

theorem binaryExponent_bounds (positive : fraction.IsPositive) :
    (2 : ℚ) ^ fraction.binaryExponent ≤ fraction.value ∧
      fraction.value < 2 ^ (fraction.binaryExponent + 1) := by
  generalize guess : (fraction.numerator.log2 : Int) - fraction.denominator.log2 = exponent
  rcases log2_quotient_bounds positive guess with ⟨below, above⟩
  have atLeastOne := denominator_le_numerator_scale_iff positive exponent
  simp only [binaryExponent, guess]
  split
  · rename_i atLeast
    exact ⟨atLeastOne.mp atLeast, above⟩
  · rename_i less
    rw [atLeastOne, not_le] at less
    exact ⟨below, by rw [sub_add_cancel]; exact less⟩

end Exponent

end Fraction

namespace Double

open Fraction

/-! ## Values and ranks -/

theorem value_valueAt (rank : Nat) :
    (valueAt rank).value = significand rank * (2 : ℚ) ^ exponent rank := by
  rw [valueAt, Fraction.value_scale, Fraction.value_ofNat, Nat.cast_ofNat]

theorem value_nonneg (rank : Nat) : 0 ≤ (valueAt rank).value := by
  rw [value_valueAt]
  positivity

theorem value_valueAt_zero : (valueAt 0).value = 0 := by
  rw [value_valueAt]
  simp [significand, rankStep]

theorem valueAt_denominator (rank : Nat) : 0 < (valueAt rank).denominator :=
  scale_denominator_pos Nat.one_pos (by decide) (exponent rank)

theorem isPositive_valueAt {rank : Nat} (positive : rank ≠ 0) : (valueAt rank).IsPositive := by
  have some : 0 < significand rank := by
    unfold significand
    split
    · exact Nat.pos_of_ne_zero positive
    · exact Nat.add_pos_left (by decide) _
  apply isPositive_of_value_pos
  rw [value_valueAt]
  positivity

/-- A rank counts units in the last place: `units` of them with the exponent `place - 1074`.
Only the first exponent goes with fewer than `rankStep` units. -/
theorem value_valueAt_units {place units : Nat} (normal : place = 0 ∨ rankStep ≤ units)
    (bounded : units ≤ 2 * rankStep) :
    (valueAt (place * rankStep + units)).value = units * (2 : ℚ) ^ ((place : Int) - 1074) := by
  rw [value_valueAt]
  rcases Nat.lt_or_ge units rankStep with subnormal | leading
  · have first : place = 0 := by omega
    subst first
    have noStep : units / rankStep = 0 := Nat.div_eq_of_lt subnormal
    simp [significand, exponent, subnormal, noStep]
  · have notBelow : ¬place * rankStep + units < rankStep := by omega
    rcases Nat.eq_or_lt_of_le bounded with carry | inside
    · have quotient : (place * rankStep + units) / rankStep = place + 2 := by
        simp only [rankStep] at carry ⊢
        omega
      have remainder : (place * rankStep + units) % rankStep = 0 := by
        simp only [rankStep] at carry ⊢
        omega
      have next : exponent (place * rankStep + units) = (place : Int) - 1074 + 1 := by
        rw [exponent, quotient]
        omega
      rw [significand, if_neg notBelow, remainder, next, carry, zpow_add_one₀ (by decide)]
      push_cast
      ring
    · have quotient : (place * rankStep + units) / rankStep = place + 1 := by
        simp only [rankStep] at leading inside ⊢
        omega
      have remainder : (place * rankStep + units) % rankStep = units - rankStep := by
        simp only [rankStep] at leading inside ⊢
        omega
      have same : exponent (place * rankStep + units) = (place : Int) - 1074 := by
        rw [exponent, quotient]
        omega
      rw [significand, if_neg notBelow, remainder, same, Nat.add_sub_cancel' leading]

/-! ## Rounding -/

def unitExponent (value : Fraction) : Int := max (value.binaryExponent - 52) (-1074)

def nearestUnits (value : Fraction) : Nat := (value.scale 2 (-unitExponent value)).roundEven

theorem nearestRank_eq {value : Fraction} (positive : value.IsPositive) :
    nearestRank value =
      (unitExponent value + 1074).toNat * rankStep + nearestUnits value := by
  rw [nearestRank, if_neg positive.numerator.ne']
  rfl

section Nearest

variable {value : Fraction}

theorem abs_nearestUnits_sub_le (positive : value.IsPositive) :
    |(nearestUnits value : ℚ) - value.value * 2 ^ (-unitExponent value)| ≤ 1 / 2 := by
  have near := abs_roundEven_sub_le
    (positive.scale (show 0 < 2 by decide) (-unitExponent value)).denominator
  rwa [Fraction.value_scale, Nat.cast_ofNat] at near

theorem value_scale_unit_lt (positive : value.IsPositive) :
    value.value * 2 ^ (-unitExponent value) < 2 ^ 53 := by
  have above := (binaryExponent_bounds positive).2
  calc value.value * 2 ^ (-unitExponent value)
    _ < 2 ^ (value.binaryExponent + 1) * 2 ^ (-unitExponent value) := by gcongr
    _ = 2 ^ (value.binaryExponent + 1 - unitExponent value) := by
        rw [← zpow_add₀ (by decide), sub_eq_add_neg]
    _ ≤ (2 : ℚ) ^ (53 : Int) := by
        apply zpow_le_zpow_right₀ (by norm_num)
        unfold unitExponent
        omega
    _ = 2 ^ 53 := zpow_ofNat _ _

theorem le_value_scale_unit (positive : value.IsPositive)
    (normal : -1022 ≤ value.binaryExponent) :
    2 ^ 52 ≤ value.value * 2 ^ (-unitExponent value) := by
  have below := (binaryExponent_bounds positive).1
  calc (2 : ℚ) ^ 52 = 2 ^ (value.binaryExponent - unitExponent value) := by
        rw [← zpow_natCast]
        congr 1
        unfold unitExponent
        omega
    _ = 2 ^ value.binaryExponent * 2 ^ (-unitExponent value) := by
        rw [← zpow_add₀ (by decide), sub_eq_add_neg]
    _ ≤ value.value * 2 ^ (-unitExponent value) := by gcongr

theorem nearestUnits_le (positive : value.IsPositive) : nearestUnits value ≤ 2 * rankStep := by
  have near := (abs_le.mp (abs_nearestUnits_sub_le positive)).2
  have below := value_scale_unit_lt positive
  have bound : ((2 * rankStep + 1 : Nat) : ℚ) = 2 ^ 53 + 1 := by norm_num [rankStep]
  have less : (nearestUnits value : ℚ) < (2 * rankStep + 1 : Nat) := by
    rw [bound]
    linarith
  exact Nat.le_of_lt_succ (by exact_mod_cast less)

theorem le_nearestUnits (positive : value.IsPositive)
    (normal : -1022 ≤ value.binaryExponent) : rankStep ≤ nearestUnits value := by
  have near := (abs_le.mp (abs_nearestUnits_sub_le positive)).1
  have above := le_value_scale_unit positive normal
  have bound : (rankStep : ℚ) = 2 ^ 52 := by norm_num [rankStep]
  have less : (rankStep : ℚ) < (nearestUnits value + 1 : Nat) := by
    rw [bound]
    push_cast
    linarith
  exact Nat.le_of_lt_succ (by exact_mod_cast less)

theorem value_nearestRank (positive : value.IsPositive) :
    (valueAt (nearestRank value)).value = nearestUnits value * 2 ^ unitExponent value := by
  have place : ((unitExponent value + 1074).toNat : Int) - 1074 = unitExponent value := by
    unfold unitExponent
    omega
  have normal : (unitExponent value + 1074).toNat = 0 ∨ rankStep ≤ nearestUnits value := by
    rcases lt_or_ge value.binaryExponent (-1022) with small | notSmall
    · left
      unfold unitExponent
      omega
    · exact .inr (le_nearestUnits positive notSmall)
  rw [nearestRank_eq positive, value_valueAt_units normal (nearestUnits_le positive), place]

theorem value_eq_units (value : Fraction) :
    value.value = value.value * 2 ^ (-unitExponent value) * 2 ^ unitExponent value := by
  rw [mul_assoc, ← zpow_add₀ (by decide), neg_add_cancel, zpow_zero, mul_one]

theorem abs_value_nearestRank_sub_le (positive : value.IsPositive)
    (normal : -1022 ≤ value.binaryExponent) :
    |(valueAt (nearestRank value)).value - value.value| ≤ value.value / 2 ^ 53 := by
  have unit : (0 : ℚ) < 2 ^ unitExponent value := zpow_pos (by decide) _
  have above := le_value_scale_unit positive normal
  calc |(valueAt (nearestRank value)).value - value.value|
    _ = |(nearestUnits value : ℚ) - value.value * 2 ^ (-unitExponent value)| *
          2 ^ unitExponent value := by
        rw [value_nearestRank positive, ← abs_of_pos unit, ← abs_mul, abs_of_pos unit, sub_mul,
          ← value_eq_units]
    _ ≤ 1 / 2 * 2 ^ unitExponent value := by
        gcongr
        exact abs_nearestUnits_sub_le positive
    _ ≤ value.value * 2 ^ (-unitExponent value) / 2 ^ 53 * 2 ^ unitExponent value := by
        refine mul_le_mul_of_nonneg_right ?_ unit.le
        rw [le_div_iff₀ (by positivity)]
        linarith
    _ = value.value / 2 ^ 53 := by
        rw [div_mul_eq_mul_div, ← value_eq_units]

theorem value_nearestRank_bounds (atLeastOne : 1 ≤ value.value) :
    value.value * (1 - 1 / 2 ^ 53) ≤ (valueAt (nearestRank value)).value ∧
      (valueAt (nearestRank value)).value ≤ value.value * (1 + 1 / 2 ^ 53) := by
  have positive := isPositive_of_value_pos (lt_of_lt_of_le one_pos atLeastOne)
  have above := (binaryExponent_bounds positive).2
  have normal : 0 < value.binaryExponent + 1 := by
    apply (one_lt_zpow_iff_right₀ (show (1 : ℚ) < 2 by norm_num)).mp
    exact lt_of_le_of_lt atLeastOne above
  have near := abs_le.mp (abs_value_nearestRank_sub_le positive (by omega))
  constructor <;> linarith [near.1, near.2]

theorem value_nearestRank_le (positive : value.IsPositive) :
    (valueAt (nearestRank value)).value ≤ 2 * value.value := by
  have unit : (0 : ℚ) < 2 ^ unitExponent value := zpow_pos (by decide) _
  have atMost := roundEven_le_two_mul
    (positive.scale (show 0 < 2 by decide) (-unitExponent value)).denominator
  rw [Fraction.value_scale, Nat.cast_ofNat] at atMost
  rw [value_nearestRank positive, value_eq_units value, ← mul_assoc]
  exact mul_le_mul_of_nonneg_right atMost unit.le

theorem pow_1024_eq : (2 : ℚ) ^ 1024 = 2 ^ 54 * 2 ^ 970 := by rw [← pow_add]

theorem pow_1023_eq : (2 : ℚ) ^ 1023 = 2 ^ 53 * 2 ^ 970 := by rw [← pow_add]

theorem pow_973_eq : (2 : ℚ) ^ 973 = 2 ^ 3 * 2 ^ 970 := by rw [← pow_add]

theorem nearestRank_lt_rankBound_of_small (positive : value.IsPositive)
    (small : value.binaryExponent < 1023) :
    nearestRank value < rankBound ∧ value.value < 2 ^ 1024 - 2 ^ 970 := by
  have units := nearestUnits_le positive
  have place : (unitExponent value + 1074).toNat ≤ 2044 := by
    unfold unitExponent
    omega
  have power : value.value < 2 ^ (1023 : Int) :=
    (binaryExponent_bounds positive).2.trans_le (zpow_le_zpow_right₀ (by norm_num) (by omega))
  constructor
  · rw [nearestRank_eq positive]
    simp only [rankBound, rankStep] at units ⊢
    omega
  · have half : (0 : ℚ) < 2 ^ 970 := by positivity
    rw [zpow_ofNat, pow_1023_eq] at power
    rw [pow_1024_eq]
    generalize (2 : ℚ) ^ 970 = half at *
    linarith

theorem nearestRank_lt_rankBound_of_greatest (positive : value.IsPositive)
    (greatest : value.binaryExponent = 1023) :
    nearestRank value < rankBound ↔ value.value < 2 ^ 1024 - 2 ^ 970 := by
  have place : unitExponent value = 971 := by
    unfold unitExponent
    omega
  have last := roundEven_lt_iff
    (positive.scale (show 0 < 2 by decide) (-unitExponent value)).denominator
    (show 2 * rankStep % 2 = 0 by decide)
  rw [Fraction.value_scale, Nat.cast_ofNat, place, zpow_neg, ← div_eq_mul_inv,
    div_lt_iff₀ (by positivity)] at last
  have rank : nearestRank value < rankBound ↔ nearestUnits value < 2 * rankStep := by
    rw [nearestRank_eq positive]
    simp only [place, rankBound, rankStep]
    omega
  have middle : ((2 * rankStep : Nat) - 1 / 2 : ℚ) * 2 ^ (971 : Int) = 2 ^ 1024 - 2 ^ 970 := by
    have double : (2 : ℚ) ^ (971 : Int) = 2 * 2 ^ 970 := by
      rw [← pow_succ', zpow_ofNat]
    rw [double, pow_1024_eq]
    generalize (2 : ℚ) ^ 970 = half
    norm_num [rankStep]
    ring
  rw [rank, nearestUnits, place, last, middle]

theorem rankBound_le_nearestRank_of_large (positive : value.IsPositive)
    (large : 1023 < value.binaryExponent) :
    rankBound ≤ nearestRank value ∧ 2 ^ 1024 - 2 ^ 970 ≤ value.value := by
  have units := le_nearestUnits positive (by omega)
  have place : 2046 ≤ (unitExponent value + 1074).toNat := by
    unfold unitExponent
    omega
  have power : 2 ^ (1024 : Int) ≤ value.value :=
    (zpow_le_zpow_right₀ (by norm_num) (by omega)).trans (binaryExponent_bounds positive).1
  constructor
  · rw [nearestRank_eq positive]
    simp only [rankBound, rankStep] at units ⊢
    omega
  · rw [zpow_ofNat] at power
    exact (sub_le_self _ (by positivity)).trans power

/-- A fraction is in range if it is less than the middle between the greatest number and the
next power of two. -/
theorem nearestRank_lt_rankBound_iff (positive : value.IsPositive) :
    nearestRank value < rankBound ↔ value.value < 2 ^ 1024 - 2 ^ 970 := by
  rcases lt_trichotomy value.binaryExponent 1023 with small | greatest | large
  · rcases nearestRank_lt_rankBound_of_small positive small with ⟨rank, inRange⟩
    exact iff_of_true rank inRange
  · exact nearestRank_lt_rankBound_of_greatest positive greatest
  · rcases rankBound_le_nearestRank_of_large positive large with ⟨rank, outside⟩
    exact iff_of_false (Nat.not_lt.mpr rank) (not_lt.mpr outside)

end Nearest

end Double

end Relay
