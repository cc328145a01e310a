import Relay.Proofs.Double.Rounding
import Relay.Proofs.Json.Literals

namespace Relay.Json.Literal

/-! Which numbers are in range. The reader keeps the leading digits that fit 64 bits and
rounds three times, so that it decides this for the exact value of a literal up to a few
units in the last place of the greatest binary number. -/

open Fraction

def magnitude (literal : Literal) : ℚ :=
  Nat.ofDigitChars 10 (literal.whole ++ literal.fraction.getD []) 0 *
    10 ^ (exponentValue literal.exponent - (literal.fraction.getD []).length)

/-! ## Leading digits -/

theorem ofDigitChars_bounds {digits : List Char} (isDigits : ∀ digit ∈ digits, digit.isDigit)
    (start : Nat) :
    start * 10 ^ digits.length ≤ Nat.ofDigitChars 10 digits start ∧
      Nat.ofDigitChars 10 digits start < (start + 1) * 10 ^ digits.length := by
  induction digits generalizing start with
  | nil => simp
  | cons digit digits induction =>
      have small : digit.toNat - '0'.toNat < 10 := by
        have atMost := (Char.isDigit_iff_toNat.mp (isDigits digit List.mem_cons_self)).2
        have zero : '0'.toNat = 48 := rfl
        have nine : '9'.toNat = 57 := rfl
        omega
      rcases induction (fun other member => isDigits other (List.mem_cons_of_mem _ member))
        (10 * start + (digit.toNat - '0'.toNat)) with ⟨low, high⟩
      rw [Nat.ofDigitChars_cons, List.length_cons, Nat.pow_succ']
      constructor
      · refine Nat.le_trans ?_ low
        rw [← Nat.mul_assoc]
        exact Nat.mul_le_mul_right _ (by omega)
      · refine Nat.lt_of_lt_of_le high ?_
        rw [← Nat.mul_assoc]
        exact Nat.mul_le_mul_right _ (by omega)

def StartsWith (count : Nat) (unit value : ℚ) : Prop :=
  count * unit ≤ value ∧ value ≤ (count + 1) * unit

theorem startsWith_self (count : Nat) {unit : ℚ} (positive : 0 ≤ unit) :
    StartsWith count unit (count * unit) :=
  ⟨le_refl _, mul_le_mul_of_nonneg_right (le_add_of_nonneg_right zero_le_one) positive⟩

theorem startsWith_digits {digits : List Char} (isDigits : ∀ digit ∈ digits, digit.isDigit)
    (start : Nat) (place : Int) :
    StartsWith start (10 ^ place)
      (Nat.ofDigitChars 10 digits start * 10 ^ (place - digits.length)) := by
  rcases ofDigitChars_bounds isDigits start with ⟨low, high⟩
  have low : (start : ℚ) * 10 ^ digits.length ≤ Nat.ofDigitChars 10 digits start := by
    exact_mod_cast low
  have high : (Nat.ofDigitChars 10 digits start : ℚ) ≤ (start + 1) * 10 ^ digits.length := by
    exact_mod_cast high.le
  have power : (10 : ℚ) ^ place = 10 ^ digits.length * 10 ^ (place - digits.length) := by
    rw [← zpow_natCast, ← zpow_add₀ (by norm_num)]
    congr 1
    omega
  rw [StartsWith, power, ← mul_assoc, ← mul_assoc]
  exact ⟨mul_le_mul_of_nonneg_right low (by positivity),
    mul_le_mul_of_nonneg_right high (by positivity)⟩

/-- The accumulator has room for no digit more, or at most for a small one. -/
def IsFull (accumulator : Nat) : Prop := UInt64.size ≤ accumulator * 10 + 9

/-- The reader keeps the digits in front and goes on until the accumulator is full. It
counts the others before the point and the kept ones after it. -/
theorem exists_kept {digits : List Char} (isDigits : ∀ digit ∈ digits, digit.isDigit)
    (start : Nat) :
    ∃ kept others, digits = kept ++ others ∧
      readWhole digits start = (Nat.ofDigitChars 10 kept start, others.length) ∧
      (∀ counted, readFraction digits start counted =
        (Nat.ofDigitChars 10 kept start, counted + kept.length)) ∧
      (others = [] ∨ IsFull (Nat.ofDigitChars 10 kept start)) ∧
      (start < UInt64.size → Nat.ofDigitChars 10 kept start < UInt64.size) := by
  induction digits generalizing start with
  | nil => exact ⟨[], [], rfl, rfl, fun _ => rfl, .inl rfl, id⟩
  | cons digit digits induction =>
      cases room : hasRoom start (digitValue digit) with
      | true =>
          rcases induction (fun other member => isDigits other (List.mem_cons_of_mem _ member))
            (start * 10 + digitValue digit)
            with ⟨kept, others, same, whole, fraction, full, bounded⟩
          have next : Nat.ofDigitChars 10 (digit :: kept) start =
              Nat.ofDigitChars 10 kept (start * 10 + digitValue digit) := by
            rw [Nat.ofDigitChars_cons, Nat.mul_comm]
            rfl
          refine ⟨digit :: kept, others, by rw [same]; rfl, ?_, ?_, by rwa [next], ?_⟩
          · rw [readWhole, if_pos room, whole, next]
          · intro counted
            rw [readFraction, if_pos room, fraction, next, List.length_cons, Nat.add_assoc,
              Nat.add_comm 1]
          · intro _
            rw [next]
            exact bounded (of_decide_eq_true room)
      | false =>
          refine ⟨[], digit :: digits, rfl, ?_, ?_, .inr ?_, id⟩
          · simp [readWhole, room]
          · simp [readFraction, room]
          · have atMost := (Char.isDigit_iff_toNat.mp (isDigits digit List.mem_cons_self)).2
            have nine : '9'.toNat = 57 := rfl
            have zero : '0'.toNat = 48 := rfl
            have noRoom : ¬start * 10 + (digit.toNat - '0'.toNat) < UInt64.size :=
              of_decide_eq_false room
            rw [Nat.ofDigitChars_nil, IsFull]
            omega

def leading (literal : Literal) : Nat × Int :=
  let (accumulator, uncounted) := readWhole literal.whole 0
  let (accumulator, kept) := readFraction (literal.fraction.getD []) accumulator 0
  (accumulator, uncounted - kept + exponentValue literal.exponent)

def leadingValue (literal : Literal) : ℚ :=
  literal.leading.1 * (10 : ℚ) ^ literal.leading.2

theorem real?_eq (literal : Literal) :
    literal.real? =
      (scale? literal.leading.1 literal.leading.2).bind (Double.ofRank? literal.negative) :=
  rfl

theorem le_mul_of_isFull {accumulator : Nat} (full : IsFull accumulator) {low high unit : ℚ}
    (positive : 0 ≤ unit) (startsLow : StartsWith accumulator unit low)
    (startsHigh : StartsWith accumulator unit high) : high ≤ low * (1 + 1 / 2 ^ 60) := by
  have large : 2 ^ 60 ≤ accumulator := by
    have size : UInt64.size = 2 ^ 64 := rfl
    rw [IsFull, size] at full
    omega
  have large : (2 : ℚ) ^ 60 ≤ accumulator := by exact_mod_cast large
  have share : unit ≤ accumulator * unit * (1 / 2 ^ 60) := by
    rw [mul_right_comm]
    refine le_mul_of_one_le_left positive ?_
    rw [mul_one_div]
    exact (one_le_div (by positivity)).mpr large
  have share : unit ≤ low * (1 / 2 ^ 60) :=
    share.trans (mul_le_mul_of_nonneg_right startsLow.1 (by positivity))
  linarith [startsLow.1, startsHigh.2]

theorem IsWellFormed.isDigits_whole {literal : Literal} (wellFormed : literal.IsWellFormed) :
    ∀ digit ∈ literal.whole, digit.isDigit := by
  rcases wellFormed.whole with isZero | ⟨isDigits, _⟩
  · rw [isZero]
    exact isDigits_zero.2
  · exact isDigits.2

theorem IsWellFormed.isDigits_fraction {literal : Literal} (wellFormed : literal.IsWellFormed) :
    ∀ digit ∈ literal.fraction.getD [], digit.isDigit := by
  cases present : literal.fraction with
  | none => nofun
  | some digits => exact (wellFormed.fraction digits present).2

theorem startsWith_of_counted (kept : List Char) {counted fraction added : List Char}
    (exponent : Int)
    (countedDigits : ∀ digit ∈ counted ++ fraction, digit.isDigit)
    (addedDigits : ∀ digit ∈ added, digit.isDigit) :
    StartsWith (Nat.ofDigitChars 10 kept 0) (10 ^ (counted.length + exponent))
        (Nat.ofDigitChars 10 (kept ++ counted ++ fraction) 0 *
          10 ^ (exponent - fraction.length)) ∧
      StartsWith (Nat.ofDigitChars 10 kept 0) (10 ^ (counted.length + exponent))
        (Nat.ofDigitChars 10 added (Nat.ofDigitChars 10 kept 0) *
          10 ^ (counted.length - added.length + exponent)) := by
  have exact := startsWith_digits countedDigits (Nat.ofDigitChars 10 kept 0)
    (counted.length + exponent)
  have read := startsWith_digits addedDigits (Nat.ofDigitChars 10 kept 0)
    (counted.length + exponent)
  have exactPlace : (counted.length + exponent : Int) - (counted ++ fraction).length =
      exponent - fraction.length := by
    rw [List.length_append]
    omega
  have readPlace : (counted.length + exponent : Int) - added.length =
      counted.length - added.length + exponent := by omega
  rw [exactPlace] at exact
  rw [readPlace] at read
  rw [List.append_assoc, Nat.ofDigitChars_append]
  exact ⟨exact, read⟩

theorem startsWith_of_dropped {kept added dropped : List Char} (exponent : Int)
    (droppedDigits : ∀ digit ∈ dropped, digit.isDigit) :
    StartsWith (Nat.ofDigitChars 10 added (Nat.ofDigitChars 10 kept 0))
      (10 ^ (exponent - added.length))
      (Nat.ofDigitChars 10 (kept ++ (added ++ dropped)) 0 *
        10 ^ (exponent - (added ++ dropped).length)) := by
  rw [Nat.ofDigitChars_append, Nat.ofDigitChars_append, List.length_append, Nat.cast_add,
    ← sub_sub]
  exact startsWith_digits droppedDigits _ (exponent - added.length)

/-- If digits are left out, then the value of the literal and that of its leading digits start
with the same full accumulator. -/
theorem leadingValue_eq_or {literal : Literal} (wellFormed : literal.IsWellFormed) :
    literal.leadingValue = literal.magnitude ∨
      ∃ (accumulator : Nat) (unit : ℚ), IsFull accumulator ∧ 0 ≤ unit ∧
        StartsWith accumulator unit literal.magnitude ∧
        StartsWith accumulator unit literal.leadingValue := by
  have wholeDigits := wellFormed.isDigits_whole
  have fractionDigits := wellFormed.isDigits_fraction
  unfold leadingValue leading magnitude
  generalize literal.whole = whole at wholeDigits ⊢
  generalize literal.fraction.getD [] = fraction at fractionDigits ⊢
  generalize exponentValue literal.exponent = exponent
  rcases exists_kept wholeDigits 0 with ⟨kept, counted, sameWhole, wholeRead, _, wholeFull, _⟩
  rcases exists_kept fractionDigits (Nat.ofDigitChars 10 kept 0)
    with ⟨added, dropped, sameFraction, _, fractionRead, fractionFull, _⟩
  simp only [wholeRead, fractionRead, Nat.zero_add]
  rcases wholeFull with noneCounted | wholeFull
  · have place : (([] : List Char).length : Int) - added.length + exponent =
        exponent - added.length := by
      rw [List.length_nil]
      omega
    rw [sameWhole, noneCounted, List.append_nil, place]
    rcases fractionFull with noneDropped | fractionFull
    · left
      rw [sameFraction, noneDropped, List.append_nil, Nat.ofDigitChars_append]
    · right
      have droppedDigits : ∀ digit ∈ dropped, digit.isDigit := fun digit member =>
        fractionDigits digit (sameFraction ▸ List.mem_append_right _ member)
      rw [sameFraction]
      exact ⟨_, _, fractionFull, by positivity, startsWith_of_dropped exponent droppedDigits,
        startsWith_self _ (by positivity)⟩
  · right
    have countedDigits : ∀ digit ∈ counted ++ fraction, digit.isDigit :=
      List.forall_mem_append.mpr ⟨fun digit member =>
        wholeDigits digit (sameWhole ▸ List.mem_append_right _ member), fractionDigits⟩
    have addedDigits : ∀ digit ∈ added, digit.isDigit := fun digit member =>
      fractionDigits digit (sameFraction ▸ List.mem_append_left _ member)
    have starts := startsWith_of_counted kept exponent countedDigits addedDigits
    rw [sameWhole]
    exact ⟨_, _, wholeFull, by positivity, starts⟩

/-- The leading digits give the value of a literal with a small relative error. -/
theorem leadingValue_bounds {literal : Literal} (wellFormed : literal.IsWellFormed) :
    literal.magnitude ≤ literal.leadingValue * (1 + 1 / 2 ^ 60) ∧
      literal.leadingValue ≤ literal.magnitude * (1 + 1 / 2 ^ 60) := by
  rcases leadingValue_eq_or wellFormed
    with same | ⟨accumulator, unit, full, positive, exact, read⟩
  · have positive : 0 ≤ literal.magnitude := by
      unfold magnitude
      positivity
    rw [same]
    constructor <;> linarith
  · exact ⟨le_mul_of_isFull full positive read exact, le_mul_of_isFull full positive exact read⟩

theorem leading_lt {literal : Literal} (wellFormed : literal.IsWellFormed) :
    literal.leading.1 < UInt64.size := by
  rcases exists_kept wellFormed.isDigits_whole 0 with ⟨kept, _, _, wholeRead, _, _, bounded⟩
  rcases exists_kept wellFormed.isDigits_fraction (Nat.ofDigitChars 10 kept 0)
    with ⟨added, _, _, _, fractionRead, _, addedBounded⟩
  simp only [leading, wholeRead, fractionRead]
  exact addedBounded (bounded (by decide))

/-! ## Rounding -/

theorem value_powerOfTen_bounds (exponent : Nat) :
    (10 : ℚ) ^ exponent * (1 - 1 / 2 ^ 53) ≤ (Double.valueAt (powerOfTen exponent)).value ∧
      (Double.valueAt (powerOfTen exponent)).value ≤ 10 ^ exponent * (1 + 1 / 2 ^ 53) := by
  have power : ((Fraction.ofNat 1).scale 10 exponent).value = 10 ^ exponent := by
    rw [Fraction.value_scale, Fraction.value_ofNat, Nat.cast_one, one_mul, Nat.cast_ofNat,
      zpow_natCast]
  rw [← power]
  apply Double.value_nearestRank_bounds
  rw [power]
  exact one_le_pow₀ (by norm_num)

def roundedProduct (accumulator exponent : Nat) : ℚ :=
  (Double.valueAt (Double.nearestRank (Fraction.ofNat accumulator))).value *
    (Double.valueAt (powerOfTen exponent)).value

theorem roundedProduct_bounds {accumulator : Nat} (positive : 0 < accumulator)
    (exponent : Nat) :
    accumulator * (10 : ℚ) ^ exponent * (1 - 1 / 2 ^ 53) ^ 2 ≤
        roundedProduct accumulator exponent ∧
      roundedProduct accumulator exponent ≤
        accumulator * (10 : ℚ) ^ exponent * (1 + 1 / 2 ^ 53) ^ 2 := by
  have atLeastOne : (1 : ℚ) ≤ accumulator := by exact_mod_cast positive
  have left : 1 ≤ (Fraction.ofNat accumulator).value := by rwa [Fraction.value_ofNat]
  rcases Double.value_nearestRank_bounds left with ⟨leftLow, leftHigh⟩
  rcases value_powerOfTen_bounds exponent with ⟨rightLow, rightHigh⟩
  rw [Fraction.value_ofNat] at leftLow leftHigh
  have small : (0 : ℚ) ≤ 1 - 1 / 2 ^ 53 := by norm_num
  unfold roundedProduct
  constructor
  · calc (accumulator : ℚ) * 10 ^ exponent * (1 - 1 / 2 ^ 53) ^ 2
      _ = accumulator * (1 - 1 / 2 ^ 53) * (10 ^ exponent * (1 - 1 / 2 ^ 53)) := by ring
      _ ≤ _ := mul_le_mul leftLow rightLow (by positivity)
          ((mul_nonneg (by positivity) small).trans leftLow)
  · calc _ ≤ (accumulator : ℚ) * (1 + 1 / 2 ^ 53) * (10 ^ exponent * (1 + 1 / 2 ^ 53)) :=
          mul_le_mul leftHigh rightHigh ((mul_nonneg (by positivity) small).trans rightLow)
            (by positivity)
      _ = accumulator * 10 ^ exponent * (1 + 1 / 2 ^ 53) ^ 2 := by ring

theorem rankMul_lt_rankBound_iff {accumulator : Nat} (positive : 0 < accumulator)
    (exponent : Nat) :
    rankMul (Double.nearestRank (Fraction.ofNat accumulator)) (powerOfTen exponent) <
        Double.rankBound ↔
      roundedProduct accumulator exponent < 2 ^ 1024 - 2 ^ 970 := by
  have small : (0 : ℚ) < 1 - 1 / 2 ^ 53 := by norm_num
  have accumulatorPositive : (0 : ℚ) < accumulator := by exact_mod_cast positive
  have low : (0 : ℚ) < accumulator * 10 ^ exponent * (1 - 1 / 2 ^ 53) ^ 2 := by positivity
  have product := low.trans_le (roundedProduct_bounds positive exponent).1
  rw [roundedProduct, ← Fraction.value_mul] at product ⊢
  exact Double.nearestRank_lt_rankBound_iff (isPositive_of_value_pos product)

theorem rankDiv_eq_zero {left : Nat} (isZero : (Double.valueAt left).value = 0) (right : Nat) :
    rankDiv left right = 0 := by
  have numerator : (Double.valueAt left).numerator = 0 := by
    have denominator : ((Double.valueAt left).denominator : ℚ) ≠ 0 := by
      exact_mod_cast (Double.valueAt_denominator left).ne'
    rw [Fraction.value, div_eq_zero_iff, or_iff_left denominator] at isZero
    exact_mod_cast isZero
  rw [rankDiv, Double.nearestRank, Fraction.div, numerator, Nat.zero_mul]
  rfl

theorem half_le_value_powerOfTen (exponent : Nat) :
    (10 : ℚ) ^ exponent / 2 ≤ (Double.valueAt (powerOfTen exponent)).value := by
  have low := (value_powerOfTen_bounds exponent).1
  have power : (0 : ℚ) < 10 ^ exponent := by positivity
  linarith

theorem value_rankDiv_le (rank : Nat) {exponent : Nat} (isPower : 0 < exponent) :
    (Double.valueAt (rankDiv rank (powerOfTen exponent))).value ≤
      (Double.valueAt rank).value := by
  rcases (Double.value_nonneg rank).eq_or_lt with isZero | positive
  · rw [rankDiv_eq_zero isZero.symm, Double.value_valueAt_zero, ← isZero]
  · have large : (2 : ℚ) ≤ (Double.valueAt (powerOfTen exponent)).value := by
      have power : (10 : ℚ) ^ 1 ≤ 10 ^ exponent := pow_le_pow_right₀ (by norm_num) isPower
      linarith [half_le_value_powerOfTen exponent]
    have quotient := Fraction.value_div (Double.valueAt rank)
      (Double.valueAt (powerOfTen exponent))
    have quotientPositive := div_pos positive (two_pos.trans_le large)
    rw [← quotient] at quotientPositive
    calc (Double.valueAt (rankDiv rank (powerOfTen exponent))).value
      _ ≤ 2 * ((Double.valueAt rank).value / (Double.valueAt (powerOfTen exponent)).value) := by
          rw [← quotient]
          exact Double.value_nearestRank_le (isPositive_of_value_pos quotientPositive)
      _ ≤ 2 * ((Double.valueAt rank).value / 2) := by gcongr
      _ = (Double.valueAt rank).value := by ring

theorem rankDiv_lt_rankBound {rank : Nat} (small : (Double.valueAt rank).value ≤ 2 ^ 65)
    (exponent : Nat) : rankDiv rank (powerOfTen exponent) < Double.rankBound := by
  rcases (Double.value_nonneg rank).eq_or_lt with isZero | positive
  · rw [rankDiv_eq_zero isZero.symm]
    decide
  · have half : (1 / 2 : ℚ) ≤ (Double.valueAt (powerOfTen exponent)).value := by
      have power : (1 : ℚ) ≤ 10 ^ exponent := one_le_pow₀ (by norm_num)
      linarith [half_le_value_powerOfTen exponent]
    have quotient := Fraction.value_div (Double.valueAt rank)
      (Double.valueAt (powerOfTen exponent))
    have quotientPositive := div_pos positive (one_half_pos.trans_le half)
    rw [← quotient] at quotientPositive
    rw [rankDiv, Double.nearestRank_lt_rankBound_iff (isPositive_of_value_pos quotientPositive),
      quotient]
    calc (Double.valueAt rank).value / (Double.valueAt (powerOfTen exponent)).value
      _ ≤ 2 ^ 65 / (1 / 2) := by gcongr
      _ < 2 ^ 1024 - 2 ^ 970 := by
          have large : (2 : ℚ) ^ 20 ≤ 2 ^ 970 := pow_le_pow_right₀ one_le_two (by decide)
          rw [Double.pow_1024_eq]
          generalize (2 : ℚ) ^ 970 = half at large
          linarith

theorem scaleDown_lt_rankBound (rank exponent : Nat)
    (small : (Double.valueAt rank).value ≤ 2 ^ 65) :
    scaleDown rank exponent < Double.rankBound := by
  induction rank, exponent using scaleDown.induct with
  | case1 rank exponent last =>
      rw [scaleDown, if_pos last]
      exact rankDiv_lt_rankBound small exponent
  | case2 exponent more =>
      rw [scaleDown, if_neg more, if_pos rfl]
      decide
  | case3 rank exponent more someRank induction =>
      rw [scaleDown, if_neg more, if_neg someRank]
      exact induction ((value_rankDiv_le rank (by decide)).trans small)

/-! ## The range -/

theorem isSome_ofRank? (negative : Bool) (rank : Nat) :
    (Double.ofRank? negative rank).isSome ↔ rank < Double.rankBound := by
  unfold Double.ofRank?
  split <;> simp_all

theorem pow_1025_lt : (2 : ℚ) ^ 1025 < 10 ^ 309 := by
  calc (2 : ℚ) ^ 1025 < 2 ^ 1026 := pow_lt_pow_right₀ one_lt_two (by decide)
    _ = ((2 ^ 171) ^ 2) ^ 3 := by rw [← pow_mul, ← pow_mul]
    _ < (10 ^ 103) ^ 3 := pow_lt_pow_left₀ (by norm_num) (by positivity) (by decide)
    _ = 10 ^ 309 := by rw [← pow_mul]

variable {accumulator : Nat} (negative : Bool)

theorem lt_of_greatestPower_lt (positive : 0 < accumulator) {exponent : Nat}
    (outside : greatestPower < exponent) :
    2 ^ 55 * 2 ^ 970 < accumulator * (10 : ℚ) ^ exponent := by
  have atLeastOne : (1 : ℚ) ≤ accumulator := by exact_mod_cast positive
  calc (2 : ℚ) ^ 55 * 2 ^ 970 = 2 ^ 1025 := by rw [← pow_add]
    _ < 10 ^ 309 := pow_1025_lt
    _ ≤ 10 ^ exponent := pow_le_pow_right₀ (by norm_num) outside
    _ ≤ accumulator * 10 ^ exponent := le_mul_of_one_le_left (by positivity) atLeastOne

theorem value_nearestRank_ofNat_le (bounded : accumulator < UInt64.size) :
    (Double.valueAt (Double.nearestRank (Fraction.ofNat accumulator))).value ≤ 2 ^ 65 := by
  rcases Nat.eq_zero_or_pos accumulator with isZero | positive
  · subst isZero
    rw [show Double.nearestRank (Fraction.ofNat 0) = 0 from rfl, Double.value_valueAt_zero]
    positivity
  · have atMost : (accumulator : ℚ) ≤ 2 ^ 64 := by exact_mod_cast bounded.le
    have isPositive : (Fraction.ofNat accumulator).IsPositive := ⟨positive, Nat.one_pos⟩
    have twice := Double.value_nearestRank_le isPositive
    rw [Fraction.value_ofNat] at twice
    linarith

theorem isSome_scale?_iff (bounded : accumulator < UInt64.size) (exponent : Int) :
    ((scale? accumulator exponent).bind (Double.ofRank? negative)).isSome ↔
      accumulator = 0 ∨ exponent < 0 ∨
        roundedProduct accumulator exponent.toNat < 2 ^ 1024 - 2 ^ 970 := by
  cases exponent with
  | ofNat exponent =>
      have notBelow : ¬Int.ofNat exponent < 0 := Int.not_lt.mpr (Int.natCast_nonneg exponent)
      rw [or_iff_right notBelow]
      change _ ↔ accumulator = 0 ∨ roundedProduct accumulator exponent < _
      rcases Nat.eq_zero_or_pos accumulator with isZero | positive
      · subst isZero
        exact iff_of_true rfl (.inl rfl)
      rw [or_iff_right positive.ne', scale?, if_neg positive.ne']
      rcases Nat.lt_or_ge greatestPower exponent with outside | inTable
      · have large := lt_of_greatestPower_lt positive outside
        have product := (roundedProduct_bounds positive exponent).1
        have half : (0 : ℚ) < 2 ^ 970 := by positivity
        rw [if_neg (Nat.not_le.mpr outside), Double.pow_1024_eq]
        generalize (2 : ℚ) ^ 970 = half at *
        exact iff_of_false (by simp) (by linarith)
      · rw [if_pos inTable, ← rankMul_lt_rankBound_iff positive]
        generalize rankMul _ _ = rank
        by_cases finite : rank < Double.rankBound
        · simp only [if_pos finite]
          exact iff_of_true ((isSome_ofRank? negative _).mpr finite) finite
        · simp only [if_neg finite]
          exact iff_of_false (by simp) finite
  | negSucc exponent =>
      have small := value_nearestRank_ofNat_le bounded
      exact iff_of_true ((isSome_ofRank? negative _).mpr (scaleDown_lt_rankBound _ _ small))
        (.inr (.inl (Int.negSucc_lt_zero exponent)))

/-! ## Numbers -/

/-- A literal is in range for the reader, which rounds its leading digits and the power of
ten: their product is less than the middle between the greatest number and the next power
of two. -/
def IsInRange (literal : Literal) : Prop :=
  literal.leading.1 = 0 ∨ literal.leading.2 < 0 ∨
    roundedProduct literal.leading.1 literal.leading.2.toNat < 2 ^ 1024 - 2 ^ 970

variable {literal : Literal}

theorem isInRange_of_le (wellFormed : literal.IsWellFormed)
    (small : literal.magnitude ≤ 2 ^ 1024 - 2 ^ 973) : literal.IsInRange := by
  have leading := (leadingValue_bounds wellFormed).2
  have leading := leading.trans (mul_le_mul_of_nonneg_right small (by positivity))
  rw [leadingValue, Double.pow_1024_eq, Double.pow_973_eq] at leading
  rw [IsInRange, Double.pow_1024_eq]
  generalize literal.leading = read at leading
  rcases read with ⟨accumulator, exponent⟩
  rcases Nat.eq_zero_or_pos accumulator with isZero | positive
  · exact .inl isZero
  cases exponent with
  | ofNat exponent =>
      have product := (roundedProduct_bounds positive exponent).2
      have half : (0 : ℚ) < 2 ^ 970 := by positivity
      simp only [Int.ofNat_eq_natCast, zpow_natCast] at leading
      right; right
      change roundedProduct accumulator exponent < _
      generalize (2 : ℚ) ^ 970 = half at *
      linarith
  | negSucc exponent => exact .inr (.inl (Int.negSucc_lt_zero exponent))

theorem not_isInRange_of_ge (wellFormed : literal.IsWellFormed)
    (large : 2 ^ 1024 + 2 ^ 973 ≤ literal.magnitude) : ¬literal.IsInRange := by
  have leading := large.trans (leadingValue_bounds wellFormed).1
  have bounded := leading_lt wellFormed
  have far : (2 : ℚ) ^ 20 ≤ 2 ^ 970 := pow_le_pow_right₀ one_le_two (by decide)
  rw [leadingValue, Double.pow_1024_eq, Double.pow_973_eq] at leading
  rw [IsInRange, Double.pow_1024_eq]
  generalize literal.leading = read at leading bounded
  rcases read with ⟨accumulator, exponent⟩
  have positive : 0 < accumulator := by
    apply Nat.pos_of_ne_zero
    intro isZero
    simp only [isZero, Nat.cast_zero, zero_mul] at leading
    exact absurd leading (not_le.mpr (by positivity))
  rw [or_iff_right positive.ne']
  cases exponent with
  | ofNat exponent =>
      have product := (roundedProduct_bounds positive exponent).1
      simp only [Int.ofNat_eq_natCast, zpow_natCast] at leading
      have notBelow : ¬Int.ofNat exponent < 0 := Int.not_lt.mpr (Int.natCast_nonneg exponent)
      rw [or_iff_right notBelow]
      change ¬roundedProduct accumulator exponent < _
      generalize (2 : ℚ) ^ 970 = half at *
      linarith
  | negSucc exponent =>
      have atMost : (accumulator : ℚ) ≤ 2 ^ 64 := by exact_mod_cast bounded.le
      have power : (10 : ℚ) ^ Int.negSucc exponent ≤ 1 := by
        rw [zpow_negSucc]
        exact inv_le_one_of_one_le₀ (one_le_pow₀ (by norm_num))
      have product : accumulator * (10 : ℚ) ^ Int.negSucc exponent ≤ 2 ^ 64 * 1 :=
        mul_le_mul atMost power (by positivity) (by positivity)
      generalize (2 : ℚ) ^ 970 = half at *
      linarith

theorem isSome_real?_iff (wellFormed : literal.IsWellFormed) :
    literal.real?.isSome ↔ literal.IsInRange :=
  isSome_scale?_iff literal.negative (leading_lt wellFormed) literal.leading.2

def wholeValue (literal : Literal) : Int :=
  if literal.negative then -(Nat.ofDigitChars 10 literal.whole 0 : Int)
  else Nat.ofDigitChars 10 literal.whole 0

theorem integer?_eq (literal : Literal) :
    literal.integer? =
      if literal.fraction.isSome ∨ literal.exponent.isSome ∨
          (literal.negative ∧ literal.wholeValue = 0) then none
      else if fits : -0x8000000000000000 ≤ literal.wholeValue ∧
          literal.wholeValue < 0x10000000000000000 then
        some (.integer literal.wholeValue fits)
      else none :=
  rfl

theorem magnitude_of_integer (noFraction : literal.fraction = none)
    (noExponent : literal.exponent = none) :
    literal.magnitude = Nat.ofDigitChars 10 literal.whole 0 := by
  simp only [magnitude, noFraction, noExponent, exponentValue, Option.getD_none,
    List.append_nil, List.length_nil, Nat.cast_zero, sub_zero, zpow_zero, mul_one]

theorem magnitude_le_of_integer? {number : Number} (integer : literal.integer? = some number) :
    literal.magnitude ≤ 2 ^ 64 := by
  rw [integer?_eq] at integer
  split at integer
  · cases integer
  · rename_i plain
    simp only [not_or, Option.not_isSome_iff_eq_none] at plain
    rcases plain with ⟨noFraction, noExponent, _⟩
    split at integer
    · rename_i fits
      have atMost : Nat.ofDigitChars 10 literal.whole 0 ≤ 2 ^ 64 := by
        unfold wholeValue at fits
        split at fits <;> omega
      rw [magnitude_of_integer noFraction noExponent]
      exact_mod_cast atMost
    · cases integer

/-- A literal has a number exactly if it is in range. -/
theorem isSome_number?_iff (wellFormed : literal.IsWellFormed) :
    literal.number?.isSome ↔ literal.IsInRange := by
  rw [number?]
  cases integer : literal.integer? with
  | none => rw [Option.orElse_none, Option.isSome_map, isSome_real?_iff wellFormed]
  | some number =>
      refine iff_of_true rfl (isInRange_of_le wellFormed ?_)
      have far : (2 : ℚ) ^ 20 ≤ 2 ^ 970 := pow_le_pow_right₀ one_le_two (by decide)
      have atMost := magnitude_le_of_integer? integer
      rw [Double.pow_1024_eq, Double.pow_973_eq]
      generalize (2 : ℚ) ^ 970 = half at *
      linarith

end Relay.Json.Literal
