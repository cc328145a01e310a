import Relay.Proofs.Double.Intervals

namespace Relay

/-! The number that a fraction is rounded to is the one in whose interval it lies. Hence a
decimal is read as a number exactly if it lies in its interval, and as none exactly if it is
beyond the intervals of all numbers. -/

namespace Fraction

theorem abs_roundEven_sub_lt {fraction : Fraction} (positive : 0 < fraction.denominator)
    (isOdd : fraction.roundEven % 2 = 1) :
    |(fraction.roundEven : ℚ) - fraction.value| < 1 / 2 := by
  rcases exists_remainder positive
    with ⟨below, remainder, same, from0, to1, ⟨side, rounded⟩ | ⟨side, rounded⟩ | ⟨side, rounded⟩⟩
  · rw [rounded, same, abs_lt]
    constructor <;> linarith
  · rw [rounded, same, abs_lt]
    push_cast
    constructor <;> linarith
  · rw [rounded] at isOdd
    omega

end Fraction

namespace Double

open Fraction

theorem lowEnd_eq {place units : Nat} (positive : 0 < units)
    (normal : place = 0 ∨ rankStep < units) (bounded : units ≤ 2 * rankStep) :
    lowEnd (place * rankStep + units) = (units - 1 / 2) * (2 : ℚ) ^ ((place : Int) - 1074) := by
  have before : place * rankStep + units - 1 = place * rankStep + (units - 1) := by omega
  have count : ((units - 1 : Nat) : ℚ) = units - 1 := by
    rw [Nat.cast_sub positive, Nat.cast_one]
  rw [lowEnd, before, value_valueAt_units (by omega) (by omega),
    value_valueAt_units (by omega) bounded, count]
  ring

section Nearest

variable {value : Fraction} (positive : value.IsPositive)
include positive

theorem abs_nearestUnits_sub_lt (isOdd : nearestUnits value % 2 = 1) :
    |(nearestUnits value : ℚ) - value.value * 2 ^ (-unitExponent value)| < 1 / 2 := by
  have near := abs_roundEven_sub_lt
    (positive.scale (show 0 < 2 by decide) (-unitExponent value)).denominator isOdd
  rwa [Fraction.value_scale, Nat.cast_ofNat] at near

theorem nearestRank_mod_two : nearestRank value % 2 = nearestUnits value % 2 := by
  rw [nearestRank_eq positive]
  simp only [rankStep]
  omega

theorem unitExponent_le_exponent : unitExponent value ≤ exponent (nearestRank value) := by
  rw [nearestRank_eq positive]
  rcases lt_or_ge value.binaryExponent (-1022) with small | normal
  · have isLeast : unitExponent value = -1074 := by
      unfold unitExponent
      omega
    unfold exponent
    omega
  · have units := le_nearestUnits positive normal
    have place : ((unitExponent value + 1074).toNat : Int) = unitExponent value + 1074 := by
      unfold unitExponent
      omega
    unfold exponent
    simp only [rankStep] at units ⊢
    omega

theorem add_half_le_highEnd :
    (nearestUnits value + 1 / 2) * (2 : ℚ) ^ unitExponent value ≤ highEnd (nearestRank value) := by
  have wider : (2 : ℚ) ^ unitExponent value ≤ 2 ^ exponent (nearestRank value) :=
    zpow_le_zpow_right₀ one_le_two (unitExponent_le_exponent positive)
  rw [highEnd, value_succ, value_nearestRank positive]
  linarith

/-- The interval reaches half a unit down, unless the number below has smaller units. The
fraction is not less than the number then. -/
theorem lowEnd_cases :
    nearestRank value = 0 ∨
      lowEnd (nearestRank value) = (nearestUnits value - 1 / 2) * (2 : ℚ) ^ unitExponent value ∨
      lowEnd (nearestRank value) < value.value := by
  have place : ((unitExponent value + 1074).toNat : Int) - 1074 = unitExponent value := by
    unfold unitExponent
    omega
  have rank := nearestRank_eq positive
  have bounded := nearestUnits_le positive
  rcases Nat.eq_zero_or_pos (unitExponent value + 1074).toNat with isFirst | later
  · rcases Nat.eq_zero_or_pos (nearestUnits value) with noUnits | someUnits
    · left
      rw [rank, isFirst, noUnits, Nat.zero_mul]
    · right
      left
      rw [rank, lowEnd_eq someUnits (.inl isFirst) bounded, place]
  · right
    have normal : -1022 ≤ value.binaryExponent := by
      unfold unitExponent at later
      omega
    have atLeast := le_nearestUnits positive normal
    rcases Nat.eq_or_lt_of_le atLeast with isStep | above
    · right
      have unit : (0 : ℚ) < 2 ^ unitExponent value := zpow_pos (by decide) _
      have isLarge := mul_le_mul_of_nonneg_right (le_value_scale_unit positive normal) unit.le
      have isNumber := value_nearestRank positive
      have step : ((nearestUnits value : Nat) : ℚ) = 2 ^ 52 := by
        rw [← isStep]
        norm_num [rankStep]
      rw [← value_eq_units, ← step, ← isNumber] at isLarge
      have positiveRank : nearestRank value ≠ 0 := by
        rw [rank]
        simp only [rankStep] at atLeast ⊢
        omega
      have below := value_lt (show nearestRank value - 1 < nearestRank value by omega)
      unfold lowEnd
      linarith
    · left
      have someUnits : 0 < nearestUnits value := by omega
      rw [rank, lowEnd_eq someUnits (.inr above) bounded, place]

/-- A fraction lies in the interval of the number that it is rounded to. -/
theorem isNearest_nearestRank : IsNearest (nearestRank value) value.value := by
  have unit : (0 : ℚ) < 2 ^ unitExponent value := zpow_pos (by decide) _
  -- The number differs by half a unit at most, and the interval reaches so far on both sides.
  have high := add_half_le_highEnd positive
  have low := lowEnd_cases positive
  have isScaled := value_eq_units value
  have near := abs_le.mp (abs_nearestUnits_sub_le positive)
  rw [IsNearest]
  split
  · have below := mul_le_mul_of_nonneg_right near.1 unit.le
    have above := mul_le_mul_of_nonneg_right near.2 unit.le
    constructor
    · rcases low with isZero | isLow | isLow
      · rw [isZero, lowEnd_zero]
        unfold Fraction.value
        positivity
      · linarith
      · exact isLow.le
    · linarith
  · rename_i isOdd
    have isOdd : nearestRank value % 2 = 1 := by omega
    rw [nearestRank_mod_two positive] at isOdd
    have strict := abs_lt.mp (abs_nearestUnits_sub_lt positive isOdd)
    have below := mul_lt_mul_of_pos_right strict.1 unit
    have above := mul_lt_mul_of_pos_right strict.2 unit
    constructor
    · rcases low with isZero | isLow | isLow
      · rw [← nearestRank_mod_two positive, isZero] at isOdd
        cases isOdd
      · linarith
      · exact isLow
    · linarith

end Nearest

/-! ## Decimals -/

theorem highEnd_zero : highEnd 0 = 2 ^ (-1075 : Int) := by
  have least : (2 : ℚ) ^ exponent 0 = 2 * 2 ^ (-1075 : Int) := by
    rw [← zpow_one_add₀ (by decide)]
    rfl
  rw [highEnd, value_succ, value_valueAt_zero, least]
  ring

theorem isNearest_zero_of_lt {value : ℚ} (nonneg : 0 ≤ value) (small : value < 2 ^ (-1075 : Int)) :
    IsNearest 0 value := by
  rw [IsNearest, if_pos (Nat.zero_mod 2), lowEnd_zero, highEnd_zero]
  exact ⟨nonneg, small.le⟩

theorem two_pow_lt_ten_pow {binary decimal : Nat} (fewer : binary ≤ 3 * decimal)
    (positive : decimal ≠ 0) : (2 : ℚ) ^ binary < 10 ^ decimal := by
  calc (2 : ℚ) ^ binary ≤ 2 ^ (3 * decimal) := pow_le_pow_right₀ one_le_two fewer
    _ = (2 ^ 3) ^ decimal := pow_mul 2 3 decimal
    _ < 10 ^ decimal := pow_lt_pow_left₀ (by norm_num) (by positivity) positive

section Decimals

variable {digits : Nat} {exponent : Int}

theorem decimal_lt_of_small
    (small : digits = 0 ∨ (Nat.toDigits 10 digits).length + exponent < -400) :
    digits * (10 : ℚ) ^ exponent < 2 ^ (-1075 : Int) := by
  rcases small with isZero | small
  · rw [isZero, Nat.cast_zero, zero_mul]
    positivity
  · have less : (digits : ℚ) < (10 ^ (Nat.toDigits 10 digits).length : Nat) := by
      exact_mod_cast lt_pow_length_toDigits digits
    push_cast at less
    calc digits * (10 : ℚ) ^ exponent
      _ < 10 ^ (Nat.toDigits 10 digits).length * 10 ^ exponent := by gcongr
      _ = 10 ^ ((Nat.toDigits 10 digits).length + exponent) := by
          rw [zpow_add₀ (by decide), zpow_natCast]
      _ ≤ 10 ^ (-401 : Int) := zpow_le_zpow_right₀ (by norm_num) (by omega)
      _ < 2 ^ (-1075 : Int) := by
          rw [zpow_neg, zpow_neg, inv_lt_inv₀ (by positivity) (by positivity), zpow_ofNat,
            zpow_ofNat]
          exact two_pow_lt_ten_pow (by decide) (by decide)

theorem lt_decimal_of_large (positive : digits ≠ 0)
    (large : 400 < (Nat.toDigits 10 digits).length + exponent) :
    2 ^ 1024 < digits * (10 : ℚ) ^ exponent := by
  have long : 0 < (Nat.toDigits 10 digits).length := Nat.length_toDigits_pos
  have first : ((10 ^ ((Nat.toDigits 10 digits).length - 1) : Nat) : ℚ) ≤ digits := by
    exact_mod_cast pow_length_toDigits_le (Nat.pos_of_ne_zero positive)
  push_cast at first
  calc (2 : ℚ) ^ 1024
    _ < 10 ^ (400 : Int) := by
        rw [zpow_ofNat]
        exact two_pow_lt_ten_pow (by decide) (by decide)
    _ ≤ 10 ^ (((Nat.toDigits 10 digits).length - 1 : Nat) + exponent) :=
        zpow_le_zpow_right₀ (by norm_num) (by omega)
    _ = 10 ^ ((Nat.toDigits 10 digits).length - 1) * 10 ^ exponent := by
        rw [zpow_add₀ (by decide), zpow_natCast]
    _ ≤ digits * (10 : ℚ) ^ exponent := by gcongr

theorem value_decimal : ((Fraction.ofNat digits).scale 10 exponent).value =
    digits * (10 : ℚ) ^ exponent := by
  rw [value_scale, value_ofNat, Nat.cast_ofNat]

theorem isPositive_decimal {digits : Nat} (positive : digits ≠ 0) (exponent : Int) :
    ((Fraction.ofNat digits).scale 10 exponent).IsPositive :=
  IsPositive.scale ⟨Nat.pos_of_ne_zero positive, Nat.one_pos⟩ (by decide) exponent

theorem ofRank?_eq_some_iff {negative : Bool} {rank : Nat} {number : Double} :
    ofRank? negative rank = some number ↔ number.negative = negative ∧ number.rank = rank := by
  rcases number with ⟨sign, place, finite⟩
  rw [ofRank?]
  split
  · rw [Option.some_inj, Double.mk.injEq, eq_comm, @eq_comm _ rank]
  · rename_i outside
    refine iff_of_false nofun ?_
    rintro ⟨-, rfl⟩
    exact outside finite

variable {negative : Bool}

/-- A decimal is read as the number that it is nearest to. -/
theorem ofDecimal?_eq_some_iff {number : Double} :
    ofDecimal? negative digits exponent = some number ↔
      number.negative = negative ∧ IsNearest number.rank (digits * (10 : ℚ) ^ exponent) := by
  rw [ofDecimal?]
  split_ifs with small large
  · have tiny := isNearest_zero_of_lt (by positivity) (decimal_lt_of_small small)
    have isZero : IsNearest number.rank (digits * (10 : ℚ) ^ exponent) ↔ number.rank = 0 :=
      ⟨fun nearest => nearest.unique tiny, fun isZero => isZero ▸ tiny⟩
    rw [isZero, ← ofRank?_eq_some_iff]
    rfl
  all_goals
    rw [not_or] at small
    have positive := isPositive_decimal small.1 exponent
    have isNearest := isNearest_nearestRank positive
    rw [value_decimal] at isNearest
    have sameRank : IsNearest number.rank (digits * (10 : ℚ) ^ exponent) ↔
        number.rank = nearestRank ((Fraction.ofNat digits).scale 10 exponent) :=
      ⟨fun nearest => nearest.unique isNearest, fun same => same ▸ isNearest⟩
    rw [sameRank]
  -- The answer without a computation agrees with the one that the computation would give.
  · refine iff_of_false nofun ?_
    rintro ⟨-, same⟩
    have inRange := (nearestRank_lt_rankBound_iff positive).mp (same ▸ number.finite)
    rw [value_decimal] at inRange
    have half : (0 : ℚ) < 2 ^ 970 := by positivity
    exact absurd (inRange.trans (sub_lt_self _ half)) (lt_decimal_of_large small.1 large).not_gt
  · exact ofRank?_eq_some_iff

theorem ofDecimal?_eq_none_iff :
    ofDecimal? negative digits exponent = none ↔
      2 ^ 1024 - 2 ^ 970 ≤ digits * (10 : ℚ) ^ exponent := by
  rw [ofDecimal?]
  have half : (0 : ℚ) < 2 ^ 970 := by positivity
  split_ifs with small large
  · refine iff_of_false nofun (not_le.mpr ?_)
    calc digits * (10 : ℚ) ^ exponent < 2 ^ (-1075 : Int) := decimal_lt_of_small small
      _ ≤ 1 := zpow_le_one_of_nonpos₀ one_le_two (by decide)
      _ ≤ 2 ^ 970 := one_le_pow₀ one_le_two
      _ ≤ 2 ^ 1024 - 2 ^ 970 := by
          rw [pow_1024_eq]
          generalize (2 : ℚ) ^ 970 = power at half ⊢
          linarith
  all_goals rw [not_or] at small
  · have beyond := lt_decimal_of_large small.1 large
    exact iff_of_true rfl ((sub_lt_self _ half).trans beyond).le
  · have inRange := nearestRank_lt_rankBound_iff (isPositive_decimal small.1 exponent)
    rw [value_decimal] at inRange
    rw [← not_lt, ← inRange, ofRank?]
    split
    · rename_i finite
      exact iff_of_false nofun (not_not.mpr finite)
    · rename_i outside
      exact iff_of_true rfl outside

end Decimals

end Double

end Relay
