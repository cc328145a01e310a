import Relay.Proofs.Double.Shortest

namespace Relay

/-! The interval around a binary number that is read back as this number. It reaches to the
middles towards both neighbours, so that the intervals of two numbers have no fraction in
common. Its shortest decimal lies in it, because grids of seventeen digits are finer than the
distance to either neighbour. Hence a number is determined by its shortest decimal. -/

namespace Fraction

section Comparison

variable {left right : Fraction}

theorem value_middle (leftPositive : 0 < left.denominator)
    (rightPositive : 0 < right.denominator) :
    (left.middle right).value = (left.value + right.value) / 2 := by
  have leftDenominator : (left.denominator : ℚ) ≠ 0 := by exact_mod_cast leftPositive.ne'
  have rightDenominator : (right.denominator : ℚ) ≠ 0 := by exact_mod_cast rightPositive.ne'
  simp only [value, middle]
  push_cast
  field_simp

theorem middle_denominator (leftPositive : 0 < left.denominator)
    (rightPositive : 0 < right.denominator) : 0 < (left.middle right).denominator :=
  Nat.mul_pos Nat.two_pos (Nat.mul_pos leftPositive rightPositive)

theorem le_iff (leftPositive : 0 < left.denominator) (rightPositive : 0 < right.denominator) :
    left.le right = true ↔ left.value ≤ right.value := by
  have leftDenominator : (0 : ℚ) < left.denominator := by exact_mod_cast leftPositive
  have rightDenominator : (0 : ℚ) < right.denominator := by exact_mod_cast rightPositive
  rw [value, value, div_le_div_iff₀ leftDenominator rightDenominator, le, decide_eq_true_eq]
  exact_mod_cast Iff.rfl

theorem lt_iff (leftPositive : 0 < left.denominator) (rightPositive : 0 < right.denominator) :
    left.lt right = true ↔ left.value < right.value := by
  have leftDenominator : (0 : ℚ) < left.denominator := by exact_mod_cast leftPositive
  have rightDenominator : (0 : ℚ) < right.denominator := by exact_mod_cast rightPositive
  rw [value, value, div_lt_div_iff₀ leftDenominator rightDenominator, lt, decide_eq_true_eq]
  exact_mod_cast Iff.rfl

end Comparison

theorem lt_pow_length_toDigits (number : Nat) :
    number < 10 ^ (Nat.toDigits 10 number).length :=
  (Nat.length_toDigits_le_iff (by decide) Nat.length_toDigits_pos).mp (Nat.le_refl _)

theorem pow_decimalPoint_le {fraction : Fraction} (positive : fraction.IsPositive) :
    (10 : ℚ) ^ (fraction.decimalPoint - 1) ≤ fraction.value := by
  have denominator : (0 : ℚ) < fraction.denominator := by exact_mod_cast positive.denominator
  rw [value, le_div_iff₀ denominator, decimalPoint]
  split
  · rename_i atLeastOne
    have digits := pow_length_toDigits_le (Nat.div_pos atLeastOne positive.denominator)
    have long : 0 < (Nat.toDigits 10 (fraction.numerator / fraction.denominator)).length :=
      Nat.length_toDigits_pos
    generalize (Nat.toDigits 10 (fraction.numerator / fraction.denominator)).length = count
      at digits long ⊢
    have product := Nat.le_trans (Nat.mul_le_mul_right fraction.denominator digits)
      (Nat.div_mul_le_self _ _)
    have exponent : (count : Int) - 1 = ((count - 1 : Nat) : Int) := by omega
    rw [exponent, zpow_natCast]
    exact_mod_cast product
  · have digits := lt_pow_length_toDigits ((fraction.denominator - 1) / fraction.numerator)
    generalize (Nat.toDigits 10 ((fraction.denominator - 1) / fraction.numerator)).length = count
      at digits ⊢
    rw [Nat.div_lt_iff_lt_mul positive.numerator] at digits
    have product : fraction.denominator ≤ 10 ^ count * fraction.numerator := by
      have denominatorPositive := positive.denominator
      omega
    have exponent : (1 : Int) - count - 1 = -(count : Int) := by omega
    rw [exponent, zpow_neg, zpow_natCast, inv_mul_le_iff₀ (by positivity)]
    exact_mod_cast product

end Fraction

namespace Decimal

def value (decimal : Decimal) : ℚ := decimal.digits * 10 ^ decimal.exponent

theorem value_reduce (digits : Nat) (exponent : Int) :
    (reduce digits exponent).value = digits * 10 ^ exponent := by
  induction digits, exponent using reduce.induct with
  | case1 exponent => simp [reduce, value]
  | case2 digits exponent positive divisible induction =>
      have tenth : digits / 10 * 10 = digits :=
        Nat.div_mul_cancel (Nat.dvd_of_mod_eq_zero divisible)
      rw [reduce, if_neg positive, if_pos divisible, induction, zpow_add_one₀ (by norm_num)]
      nth_rewrite 2 [← tenth]
      push_cast
      ring
  | case3 digits exponent positive others =>
      rw [reduce, if_neg positive, if_neg others]
      rfl

end Decimal

namespace Double

open Fraction

/-! ## Neighbours -/

theorem exists_units (rank : Nat) : ∃ place units : Nat, rank = place * rankStep + units ∧
    (place = 0 ∨ rankStep ≤ units) ∧ units < 2 * rankStep ∧
    exponent rank = (place : Int) - 1074 := by
  refine ⟨rank / rankStep - 1, rank - (rank / rankStep - 1) * rankStep, ?_, ?_, ?_, ?_⟩
  · simp only [rankStep]
    omega
  · simp only [rankStep]
    omega
  · simp only [rankStep]
    omega
  · simp only [exponent, rankStep]
    omega

theorem value_succ (rank : Nat) :
    (valueAt (rank + 1)).value = (valueAt rank).value + 2 ^ exponent rank := by
  rcases exists_units rank with ⟨place, units, same, normal, bounded, isExponent⟩
  have next : rank + 1 = place * rankStep + (units + 1) := by rw [same, Nat.add_assoc]
  have normalNext : place = 0 ∨ rankStep ≤ units + 1 := by omega
  rw [isExponent, next, value_valueAt_units normalNext bounded, same,
    value_valueAt_units normal bounded.le]
  push_cast
  ring

theorem value_succ_le (rank : Nat) :
    (valueAt (rank + 1)).value ≤ 2 ^ 53 * (2 : ℚ) ^ exponent rank := by
  rcases exists_units rank with ⟨place, units, same, normal, bounded, isExponent⟩
  have next : rank + 1 = place * rankStep + (units + 1) := by rw [same, Nat.add_assoc]
  have normalNext : place = 0 ∨ rankStep ≤ units + 1 := by omega
  have atMost : ((units + 1 : Nat) : ℚ) ≤ 2 ^ 53 := by
    have step : 2 * rankStep = 2 ^ 53 := rfl
    rw [step] at bounded
    exact_mod_cast bounded
  rw [isExponent, next, value_valueAt_units normalNext bounded]
  exact mul_le_mul_of_nonneg_right atMost (by positivity)

theorem value_strictMono : StrictMono fun rank => (valueAt rank).value := by
  apply strictMono_nat_of_lt_succ
  intro rank
  rw [value_succ]
  exact lt_add_of_pos_right _ (by positivity)

theorem value_mono {left right : Nat} (le : left ≤ right) :
    (valueAt left).value ≤ (valueAt right).value :=
  value_strictMono.monotone le

theorem value_lt {left right : Nat} (less : left < right) :
    (valueAt left).value < (valueAt right).value :=
  value_strictMono less

theorem exponent_mono {left right : Nat} (le : left ≤ right) : exponent left ≤ exponent right := by
  have quotients := Nat.div_le_div_right (c := rankStep) le
  unfold exponent
  omega

/-! ## Intervals -/

def lowEnd (rank : Nat) : ℚ := ((valueAt (rank - 1)).value + (valueAt rank).value) / 2

def highEnd (rank : Nat) : ℚ := ((valueAt rank).value + (valueAt (rank + 1)).value) / 2

/-- The ends belong to the even one of two neighbours. -/
def IsNearest (rank : Nat) (value : ℚ) : Prop :=
  if rank % 2 = 0 then lowEnd rank ≤ value ∧ value ≤ highEnd rank
  else lowEnd rank < value ∧ value < highEnd rank

theorem roundsTo_iff {rank : Nat} {fraction : Fraction} (positive : 0 < fraction.denominator) :
    roundsTo rank fraction = true ↔ IsNearest rank fraction.value := by
  have low := middle_denominator (valueAt_denominator (rank - 1)) (valueAt_denominator rank)
  have high := middle_denominator (valueAt_denominator rank) (valueAt_denominator (rank + 1))
  rw [IsNearest, lowEnd, highEnd,
    ← value_middle (valueAt_denominator (rank - 1)) (valueAt_denominator rank),
    ← value_middle (valueAt_denominator rank) (valueAt_denominator (rank + 1)), roundsTo]
  split
  · rw [Bool.and_eq_true, le_iff low positive, le_iff positive high]
  · rw [Bool.and_eq_true, lt_iff low positive, lt_iff positive high]

theorem lowEnd_zero : lowEnd 0 = 0 := by
  rw [lowEnd, Nat.zero_sub, value_valueAt_zero]
  norm_num

theorem isNearest_zero : IsNearest 0 0 := by
  have above := value_nonneg (0 + 1)
  rw [IsNearest, if_pos (Nat.zero_mod 2), lowEnd_zero, highEnd, value_valueAt_zero]
  constructor <;> linarith

section Nearest

variable {rank : Nat} {value : ℚ}

theorem IsNearest.bounds (nearest : IsNearest rank value) :
    lowEnd rank ≤ value ∧ value ≤ highEnd rank := by
  unfold IsNearest at nearest
  split at nearest
  · exact nearest
  · exact ⟨nearest.1.le, nearest.2.le⟩

theorem isNearest_of_between (above : lowEnd rank < value) (below : value < highEnd rank) :
    IsNearest rank value := by
  unfold IsNearest
  split
  · exact ⟨above.le, below.le⟩
  · exact ⟨above, below⟩

theorem highEnd_le_lowEnd {left right : Nat} (less : left < right) :
    highEnd left ≤ lowEnd right := by
  have before := value_mono (show left ≤ right - 1 by omega)
  have after := value_mono (show left + 1 ≤ right from less)
  unfold highEnd lowEnd
  linarith

theorem not_isNearest_of_lt {left right : Nat} (less : left < right)
    (nearest : IsNearest left value) : ¬IsNearest right value := by
  intro other
  have apart := highEnd_le_lowEnd less
  have atHigh := nearest.bounds.2
  have atLow := other.bounds.1
  -- The value can only be the common end of two neighbours, and one of them is odd.
  have isEnd : highEnd left = lowEnd right := by linarith
  have areNeighbours : right = left + 1 := by
    apply Nat.le_antisymm _ less
    apply Nat.le_of_not_lt
    intro far
    have before := value_lt (show left < right - 1 by omega)
    have after := value_mono (show left + 1 ≤ right from less)
    unfold highEnd lowEnd at isEnd
    linarith
  unfold IsNearest at nearest other
  split at nearest
  · rw [if_neg (by omega)] at other
    linarith [other.1]
  · linarith [nearest.2]

theorem IsNearest.unique {left right : Nat} (isLeft : IsNearest left value)
    (isRight : IsNearest right value) : left = right := by
  rcases Nat.lt_trichotomy left right with less | same | greater
  · exact absurd isRight (not_isNearest_of_lt less isLeft)
  · exact same
  · exact absurd isLeft (not_isNearest_of_lt greater isRight)

end Nearest

/-! ## Grids -/

/-- On a grid that is finer than the distance to the neighbour below, the nearest decimal is
read back. -/
theorem isNearest_roundEven {rank : Nat} (positive : rank ≠ 0) {grid : Int}
    (fine : (10 : ℚ) ^ grid < 2 ^ exponent (rank - 1)) :
    IsNearest rank (((valueAt rank).scale 10 (-grid)).roundEven * (10 : ℚ) ^ grid) := by
  have step := value_succ (rank - 1)
  rw [Nat.sub_add_cancel (Nat.one_le_iff_ne_zero.mpr positive)] at step
  have wider : (2 : ℚ) ^ exponent (rank - 1) ≤ 2 ^ exponent rank :=
    zpow_le_zpow_right₀ one_le_two (exponent_mono (Nat.sub_le rank 1))
  have near := abs_roundEven_sub_le
    (scale_denominator_pos (valueAt_denominator rank) (show 0 < 10 by decide) (-grid))
  rw [value_scale, Nat.cast_ofNat] at near
  have unit : (0 : ℚ) < 10 ^ grid := by positivity
  have scaled : (((valueAt rank).scale 10 (-grid)).roundEven : ℚ) * 10 ^ grid -
      (valueAt rank).value = (((valueAt rank).scale 10 (-grid)).roundEven -
        (valueAt rank).value * 10 ^ (-grid)) * 10 ^ grid := by
    rw [sub_mul, mul_assoc, ← zpow_add₀ (by norm_num), neg_add_cancel, zpow_zero, mul_one]
  have offset := mul_le_mul_of_nonneg_right near unit.le
  rw [← abs_of_pos unit, ← abs_mul, abs_of_pos unit, ← scaled] at offset
  rw [abs_le] at offset
  apply isNearest_of_between
  · unfold lowEnd
    linarith [offset.1]
  · unfold highEnd
    rw [value_succ]
    linarith [offset.2]

theorem pow_grid_lt {rank : Nat} (positive : rank ≠ 0) :
    (10 : ℚ) ^ ((valueAt rank).decimalPoint - 17) < 2 ^ exponent (rank - 1) := by
  have atMost := value_succ_le (rank - 1)
  rw [Nat.sub_add_cancel (Nat.one_le_iff_ne_zero.mpr positive)] at atMost
  have leading := (pow_decimalPoint_le (isPositive_valueAt positive)).trans atMost
  have shifted : (10 : ℚ) ^ ((valueAt rank).decimalPoint - 1) =
      10 ^ ((valueAt rank).decimalPoint - 17) * 10 ^ 16 := by
    rw [← zpow_natCast, ← zpow_add₀ (by norm_num)]
    congr 1
    norm_num
    ring
  have unit : (0 : ℚ) < 2 ^ exponent (rank - 1) := by positivity
  -- The number has at most `2 ^ 53` such units, and `2 ^ 53 < 10 ^ 16`.
  rw [shifted] at leading
  linarith

/-! ## The shortest decimal -/

theorem fits_of_firstFitting {fits : Nat → Bool} {nearer below above digits : Nat}
    (found : (if fits nearer then some nearer
      else if fits below then some below
      else if fits above then some above
      else none) = some digits) : fits digits = true := by
  split at found
  · rename_i isFitting
    cases found
    exact isFitting
  · split at found
    · rename_i isFitting
      cases found
      exact isFitting
    · split at found
      · rename_i isFitting
        cases found
        exact isFitting
      · cases found

theorem roundsTo_scale_iff {rank digits : Nat} {grid : Int} :
    roundsTo rank ((Fraction.ofNat digits).scale 10 grid) = true ↔
      IsNearest rank (digits * (10 : ℚ) ^ grid) := by
  rw [roundsTo_iff (scale_denominator_pos Nat.one_pos (by decide) grid), value_scale,
    value_ofNat, Nat.cast_ofNat]

theorem isNearest_of_onGrid? {tie : Tie} {rank : Nat} {grid : Int} {digits : Nat}
    (found : onGrid? tie rank grid = some digits) :
    IsNearest rank (digits * (10 : ℚ) ^ grid) := by
  let fits (digits : Nat) := roundsTo rank ((Fraction.ofNat digits).scale 10 grid)
  have isFitting : fits digits = true := fits_of_firstFitting found
  exact roundsTo_scale_iff.mp isFitting

/-- Whichever of the two neighbours on the grid is tried first, the nearer one is tried. -/
theorem isSome_onGrid? {tie : Tie} {rank : Nat} (positive : rank ≠ 0) :
    (onGrid? tie rank ((valueAt rank).decimalPoint - 17)).isSome := by
  have fits := roundsTo_scale_iff.mpr (isNearest_roundEven positive (pow_grid_lt positive))
  let scaled := (valueAt rank).scale 10 (-((valueAt rank).decimalPoint - 17))
  let below := scaled.numerator / scaled.denominator
  have isTried : scaled.roundEven = below ∨ scaled.roundEven = below + 1 := by
    rcases scaled.roundEven_cases with ⟨_, rounded⟩ | ⟨_, rounded⟩ | ⟨_, rounded⟩
    · exact .inl rounded
    · exact .inr rounded
    · rw [rounded]
      rcases Nat.mod_two_eq_zero_or_one below with even | odd
      · exact .inl (by rw [even, Nat.add_zero])
      · exact .inr (by rw [odd])
  simp only [onGrid?]
  split_ifs with nearer first last
  · rfl
  · rfl
  · rfl
  · rcases isTried with isBelow | isAbove
    · rw [isBelow] at fits
      exact absurd fits first
    · rw [isAbove] at fits
      exact absurd fits last

theorem isNearest_shortestFrom {tie : Tie} {rank : Nat} {point : Int} {most : Nat}
    (enough : (onGrid? tie rank (point - most)).isSome) (count attempts : Nat)
    (reached : count ≤ most) (allTried : count + attempts = most + 1) :
    IsNearest rank (shortestFrom tie rank point count attempts).value := by
  induction attempts generalizing count with
  | zero => omega
  | succ attempts induction =>
      simp only [shortestFrom]
      cases found : onGrid? tie rank (point - count) with
      | some digits =>
          simp only [Decimal.value_reduce]
          exact isNearest_of_onGrid? found
      | none =>
          have notLast : count ≠ most := by
            intro last
            rw [last] at found
            rw [found] at enough
            cases enough
          exact induction (count + 1) (by omega) (by omega)

/-- The shortest decimal is nearest to its number. -/
theorem isNearest_shortest (number : Double) (tie : Tie) :
    IsNearest number.rank (number.shortest tie).value := by
  unfold shortest
  split
  · rename_i isZero
    rw [isZero, Decimal.value, Nat.cast_zero, zero_mul]
    exact isNearest_zero
  · rename_i positive
    exact isNearest_shortestFrom (isSome_onGrid? positive) 1 17 (by decide) rfl

theorem rank_eq_of_shortest {left right : Double}
    (same : (left.shortest .even).value = (right.shortest .even).value) :
    left.rank = right.rank := by
  have isLeft := left.isNearest_shortest .even
  rw [same] at isLeft
  exact isLeft.unique (right.isNearest_shortest .even)

theorem value_shortest_lt (number : Double) :
    (number.shortest .even).value < (valueAt (number.rank + 1)).value := by
  have atMost := (number.isNearest_shortest .even).bounds.2
  have above := value_lt (Nat.lt_succ_self number.rank)
  unfold highEnd at atMost
  linarith

end Double

end Relay
