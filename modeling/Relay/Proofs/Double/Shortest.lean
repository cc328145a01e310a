import Relay.Double.Shortest
import Relay.Proofs.Double.Rounding

namespace Relay

/-! The shortest decimals of binary numbers have at most seventeen digits: they lie on grids
that cut off their numbers after so many digits. -/

namespace Fraction

theorem pow_length_toDigits_le {number : Nat} (positive : 0 < number) :
    10 ^ ((Nat.toDigits 10 number).length - 1) ≤ number := by
  have long : 0 < (Nat.toDigits 10 number).length := Nat.length_toDigits_pos
  rcases Nat.eq_zero_or_pos ((Nat.toDigits 10 number).length - 1) with single | several
  · rw [single]
    exact positive
  · apply Nat.le_of_not_lt
    intro less
    have short := (Nat.length_toDigits_le_iff (by decide) several).mpr less
    omega

theorem value_lt_pow_decimalPoint {fraction : Fraction} (positive : fraction.IsPositive) :
    fraction.value < 10 ^ fraction.decimalPoint := by
  have denominator : (0 : ℚ) < fraction.denominator := by exact_mod_cast positive.denominator
  rw [value, div_lt_iff₀ denominator, decimalPoint]
  split
  · have quotient := (Nat.length_toDigits_le_iff (by decide) Nat.length_toDigits_pos).mp
      (Nat.le_refl (Nat.toDigits 10 (fraction.numerator / fraction.denominator)).length)
    rw [Nat.div_lt_iff_lt_mul positive.denominator] at quotient
    rw [zpow_natCast]
    exact_mod_cast quotient
  · rename_i less
    have atMost : fraction.numerator ≤ fraction.denominator - 1 := by omega
    have zeros := pow_length_toDigits_le (Nat.div_pos atMost positive.numerator)
    have long : 0 < (Nat.toDigits 10 ((fraction.denominator - 1) / fraction.numerator)).length :=
      Nat.length_toDigits_pos
    generalize (Nat.toDigits 10 ((fraction.denominator - 1) / fraction.numerator)).length = count
      at zeros long ⊢
    have product : 10 ^ (count - 1) * fraction.numerator < fraction.denominator := by
      have below := Nat.le_trans (Nat.mul_le_mul_right fraction.numerator zeros)
        (Nat.div_mul_le_self _ _)
      have denominatorPositive := positive.denominator
      omega
    have exponent : (1 : Int) - count = -((count - 1 : Nat) : Int) := by omega
    rw [exponent, zpow_neg, zpow_natCast, lt_inv_mul_iff₀ (by positivity)]
    exact_mod_cast product

theorem floor_le_value (fraction : Fraction) (positive : 0 < fraction.denominator) :
    ((fraction.numerator / fraction.denominator : Nat) : ℚ) ≤ fraction.value := by
  rw [value_eq fraction positive]
  exact le_add_of_nonneg_right (by positivity)

theorem roundEven_le (fraction : Fraction) :
    fraction.roundEven ≤ fraction.numerator / fraction.denominator + 1 := by
  rcases fraction.roundEven_cases with ⟨_, rounded⟩ | ⟨_, rounded⟩ | ⟨_, rounded⟩
  · omega
  · omega
  · omega

theorem roundUp_le (fraction : Fraction) :
    fraction.roundUp ≤ fraction.numerator / fraction.denominator + 1 := by
  unfold roundUp
  simp only
  split <;> omega

end Fraction

theorem Decimal.digits_reduce_le (digits : Nat) (exponent : Int) :
    (reduce digits exponent).digits ≤ digits := by
  induction digits, exponent using reduce.induct with
  | case1 exponent => simp [reduce]
  | case2 digits exponent positive divisible induction =>
      rw [reduce, if_neg positive, if_pos divisible]
      exact Nat.le_trans induction (Nat.div_le_self _ _)
  | case3 digits exponent positive others =>
      rw [reduce, if_neg positive, if_neg others]

namespace Double

open Fraction

/-- The nearer one of two neighbours is tried first. -/
theorem le_of_firstFitting (fits : Nat → Bool) {nearer below digits : Nat}
    (nearest : nearer ≤ below + 1)
    (found : (if fits nearer then some nearer
      else if fits below then some below
      else if fits (below + 1) then some (below + 1)
      else none) = some digits) : digits ≤ below + 1 := by
  split at found
  · cases found
    exact nearest
  · split at found
    · cases found
      exact Nat.le_succ _
    · split at found
      · cases found
        exact Nat.le_refl _
      · cases found

theorem onGrid?_le {tie : Tie} {rank : Nat} {grid : Int} {digits : Nat}
    (found : onGrid? tie rank grid = some digits) :
    (digits : ℚ) ≤ (valueAt rank).value * 10 ^ (-grid) + 1 := by
  generalize same : (valueAt rank).scale 10 (-grid) = scaled
  have value : (valueAt rank).value * 10 ^ (-grid) = scaled.value := by
    rw [← same, Fraction.value_scale, Nat.cast_ofNat]
  have denominator : 0 < scaled.denominator := by
    rw [← same]
    exact Fraction.scale_denominator_pos (valueAt_denominator rank) (by decide) (-grid)
  have floor := scaled.floor_le_value denominator
  have atMost : digits ≤ scaled.numerator / scaled.denominator + 1 := by
    let fits (digits : Nat) := roundsTo rank ((Fraction.ofNat digits).scale 10 grid)
    simp only [onGrid?, same] at found
    cases tie with
    | even => exact le_of_firstFitting fits scaled.roundEven_le found
    | greater => exact le_of_firstFitting fits scaled.roundUp_le found
  have atMost : (digits : ℚ) ≤ (scaled.numerator / scaled.denominator : Nat) + 1 := by
    exact_mod_cast atMost
  rw [value]
  linarith

theorem digits_shortestFrom_le (tie : Tie) {rank : Nat} {point : Int}
    (below : (valueAt rank).value < 10 ^ point) {most : Nat} (count attempts : Nat)
    (bounded : count + attempts ≤ most + 1) :
    (shortestFrom tie rank point count attempts).digits ≤ 10 ^ most := by
  induction attempts generalizing count with
  | zero => exact Nat.zero_le _
  | succ attempts induction =>
      simp only [shortestFrom]
      cases found : onGrid? tie rank (point - count) with
      | none => exact induction (count + 1) (by omega)
      | some digits =>
          refine Nat.le_trans (Decimal.digits_reduce_le digits _) ?_
          have grid : (valueAt rank).value * 10 ^ (-(point - count)) < (10 : ℚ) ^ count := by
            rw [neg_sub, zpow_sub₀ (by norm_num), zpow_natCast, ← mul_div_assoc,
              div_lt_iff₀ (by positivity), mul_comm]
            gcongr
          have atMost : (digits : ℚ) < (10 ^ count + 1 : Nat) := by
            push_cast
            linarith [onGrid?_le found]
          have atMost : digits < 10 ^ count + 1 := by exact_mod_cast atMost
          exact Nat.le_trans (Nat.le_of_lt_succ atMost)
            (Nat.pow_le_pow_right (by decide) (by omega))

/-- Seventeen digits at most, or a single one behind them. -/
theorem digits_shortest_le (tie : Tie) (number : Double) :
    (number.shortest tie).digits ≤ 10 ^ 17 := by
  unfold shortest
  split
  · exact Nat.zero_le _
  · rename_i positive
    apply digits_shortestFrom_le tie _ 1 17 (Nat.le_refl _)
    exact Fraction.value_lt_pow_decimalPoint (isPositive_valueAt positive)

end Double

end Relay
