import Relay.Proofs.Double.Shortest
import Relay.Proofs.Json.Meaning

namespace Relay.Json.Literal

/-! What becomes of numbers that are read and written again. An integer that fits 64 bits
keeps its value. Every other one is read as a binary number and written in the shortest
decimal for this number, so that it keeps its value only if it is that decimal itself. -/

/-! ## The value of a decimal -/

theorem ofDigitChars_zeros (count start : Nat) :
    Nat.ofDigitChars 10 (List.replicate count '0') start = start * 10 ^ count := by
  induction count generalizing start with
  | zero => simp
  | succ count induction =>
      rw [List.replicate_succ, Nat.ofDigitChars_cons, Nat.sub_self, Nat.add_zero, induction,
        Nat.pow_succ', Nat.mul_comm 10 start, Nat.mul_assoc]

theorem ofDigitChars_zero_cons (digits : List Char) :
    Nat.ofDigitChars 10 ('0' :: digits) 0 = Nat.ofDigitChars 10 digits 0 := by
  rw [Nat.ofDigitChars_cons, Nat.sub_self]

theorem magnitude_positional (negative : Bool) (digits : List Char) (point : Int) :
    (positional negative digits point).magnitude =
      Nat.ofDigitChars 10 digits 0 * (10 : ℚ) ^ (point - digits.length) := by
  cases point with
  | ofNat point =>
      cases point with
      | zero =>
          simp only [positional, magnitude, Option.getD_some, exponentValue, List.cons_append,
            List.nil_append, ofDigitChars_zero_cons]
          rfl
      | succ point =>
          rw [positional_succ]
          split
          · rename_i short
            have zeros : (Int.ofNat (point + 1) - digits.length) =
                (point + 1 - digits.length : Nat) := by
              rw [Int.ofNat_eq_natCast]
              omega
            have value : Nat.ofDigitChars 10
                (digits ++ List.replicate (point + 1 - digits.length) '0' ++ ['0']) 0 =
                Nat.ofDigitChars 10 digits 0 * 10 ^ (point + 1 - digits.length) * 10 := by
              rw [Nat.ofDigitChars_append, Nat.ofDigitChars_append, ofDigitChars_zeros,
                Nat.ofDigitChars_cons, Nat.ofDigitChars_nil, Nat.sub_self, Nat.add_zero,
                Nat.mul_comm 10]
            simp only [magnitude, Option.getD_some, exponentValue, value, zeros, zpow_natCast]
            push_cast
            simp [mul_assoc]
          · rename_i long
            have place : (0 : Int) - (digits.drop (point + 1)).length =
                Int.ofNat (point + 1) - digits.length := by
              rw [List.length_drop, Int.ofNat_eq_natCast]
              omega
            simp only [magnitude, Option.getD_some, exponentValue, List.take_append_drop, place]
  | negSucc zeros =>
      have place : (0 : Int) - (List.replicate (zeros + 1) '0' ++ digits).length =
          Int.negSucc zeros - digits.length := by
        rw [List.length_append, List.length_replicate, Int.negSucc_eq]
        omega
      have value : Nat.ofDigitChars 10 (['0'] ++ (List.replicate (zeros + 1) '0' ++ digits)) 0 =
          Nat.ofDigitChars 10 digits 0 := by
        rw [List.singleton_append, ofDigitChars_zero_cons, Nat.ofDigitChars_append,
          ofDigitChars_zeros, Nat.zero_mul]
      simp only [positional, magnitude, Option.getD_some, exponentValue, value, place]

theorem exponentValue_toDigits (exponent : Int) :
    exponentValue (some (decide (exponent < 0), Nat.toDigits 10 exponent.natAbs)) = exponent := by
  have digits : Nat.ofDigitChars 10 (Nat.toDigits 10 exponent.natAbs) 0 = exponent.natAbs :=
    Nat.ofDigitChars_toDigits (by decide) (by decide)
  rcases lt_or_ge exponent 0 with below | notBelow
  · simp only [decide_eq_true below, exponentValue, digits]
    omega
  · simp only [decide_eq_false (Int.not_lt.mpr notBelow), exponentValue, digits]
    omega

theorem magnitude_scientific (negative : Bool) {digits : List Char} (someDigits : digits ≠ [])
    (exponent : Int) :
    (scientific negative digits exponent).magnitude =
      Nat.ofDigitChars 10 digits 0 * (10 : ℚ) ^ (exponent + 1 - digits.length) := by
  have fraction : (if digits.length = 1 then none else some (digits.drop 1)).getD [] =
      digits.drop 1 := by
    split
    · rename_i single
      exact (List.drop_eq_nil_of_le single.le).symm
    · rfl
  have place : exponent - (digits.drop 1).length = exponent + 1 - digits.length := by
    have positive := List.length_pos_iff.mpr someDigits
    rw [List.length_drop]
    omega
  simp only [magnitude, scientific, fraction, exponentValue_toDigits, List.take_append_drop,
    place]

theorem magnitude_ofDecimal (negative : Bool) (decimal : Decimal) :
    (ofDecimal negative decimal).magnitude = decimal.digits * (10 : ℚ) ^ decimal.exponent := by
  have digits : Nat.ofDigitChars 10 decimal.text 0 = decimal.digits :=
    Nat.ofDigitChars_toDigits (by decide) (by decide)
  have exponent : decimal.point - decimal.text.length = decimal.exponent := by
    rw [Decimal.point]
    omega
  unfold ofDecimal
  split
  · rw [magnitude_positional, digits, exponent]
  · have someDigits : decimal.text ≠ [] := Nat.toDigits_ne_nil
    rw [magnitude_scientific negative someDigits, sub_add_cancel, digits, exponent]

/-! ## Integers that fit 64 bits -/

def IsInteger (literal : Literal) : Prop := literal.fraction = none ∧ literal.exponent = none

def FitsWord (literal : Literal) : Prop :=
  -0x8000000000000000 ≤ literal.wholeValue ∧ literal.wholeValue < 0x10000000000000000

instance (literal : Literal) : Decidable literal.FitsWord := inferInstanceAs (Decidable (_ ∧ _))

section Integers

variable {literal : Literal}

theorem IsInteger.value_eq (isInteger : literal.IsInteger) :
    literal.value = literal.wholeValue := by
  rw [value, wholeValue, magnitude_of_integer isInteger.1 isInteger.2]
  split
  · push_cast
    rfl
  · push_cast
    rfl

theorem value_ofInteger (value : Int) : (ofInteger value).value = value := by
  have isInteger : (ofInteger value).IsInteger := ⟨rfl, rfl⟩
  have digits : Nat.ofDigitChars 10 (Nat.toDigits 10 value.natAbs) 0 = value.natAbs :=
    Nat.ofDigitChars_toDigits (by decide) (by decide)
  rw [isInteger.value_eq, Int.cast_inj]
  simp only [wholeValue, ofInteger, digits, decide_eq_true_eq]
  split <;> omega

theorem IsWellFormed.whole_of_zero (wellFormed : literal.IsWellFormed)
    (isZero : Nat.ofDigitChars 10 literal.whole 0 = 0) : literal.whole = ['0'] := by
  rcases wellFormed.whole with single | ⟨isDigits, noZero⟩
  · exact single
  · cases written : literal.whole with
    | nil => exact absurd written isDigits.1
    | cons digit others =>
        rw [written] at isDigits noZero isZero
        have low := (ofDigitChars_bounds (fun other member =>
          isDigits.2 other (List.mem_cons_of_mem _ member)) (10 * 0 + (digit.toNat - '0'.toNat))).1
        rw [← Nat.ofDigitChars_cons, isZero, Nat.le_zero, Nat.mul_eq_zero,
          or_iff_left (Nat.pow_pos (by decide)).ne'] at low
        have atLeast := (Char.isDigit_iff_toNat.mp (isDigits.2 digit List.mem_cons_self)).1
        have same : digit.toNat = '0'.toNat := by omega
        exact absurd (congrArg some (Char.toNat_inj.mp same)) noZero

theorem value_of_zero
    (isZero : Nat.ofDigitChars 10 (literal.whole ++ literal.fraction.getD []) 0 = 0) :
    literal.value = 0 := by
  rw [value, magnitude, isZero]
  simp

theorem value_reprint_minusZero : (Literal.mk true ['0'] none none).reprint.value = 0 := by
  have reprinted : (Literal.mk true ['0'] none none).reprint =
      ⟨true, ['0'], some ['0'], none⟩ := by decide +kernel
  rw [reprinted, value_of_zero (by decide)]

theorem keepsValue_of_fitsWord (wellFormed : literal.IsWellFormed)
    (isInteger : literal.IsInteger) (fits : literal.FitsWord) : literal.KeepsValue := by
  rcases isInteger with ⟨noFraction, noExponent⟩
  by_cases minusZero : literal.negative = true ∧ literal.wholeValue = 0
  · rcases minusZero with ⟨negative, isZero⟩
    have digits : Nat.ofDigitChars 10 literal.whole 0 = 0 := by
      rw [wholeValue, if_pos negative] at isZero
      omega
    have same : literal = ⟨true, ['0'], none, none⟩ := by
      rw [← negative, ← wellFormed.whole_of_zero digits, ← noFraction, ← noExponent]
    rw [same, KeepsValue, value_reprint_minusZero, value_of_zero (by decide)]
  · unfold FitsWord at fits
    have integer : literal.integer? = some (.integer literal.wholeValue fits) := by
      rw [integer?_eq, if_neg, dif_pos fits]
      simpa [noFraction, noExponent] using minusZero
    have reprinted : literal.reprint = ofInteger literal.wholeValue := by
      rw [reprint, number?, integer]
      rfl
    rw [KeepsValue, reprinted, value_ofInteger, IsInteger.value_eq ⟨noFraction, noExponent⟩]

/-! ## Other integers -/

theorem integer?_of_not_fitsWord (outside : ¬literal.FitsWord) : literal.integer? = none := by
  rw [integer?_eq]
  split
  · rfl
  · exact dif_neg outside

section Real

variable {real : Double}

theorem reprint_of_real? (noInteger : literal.integer? = none)
    (isReal : literal.real? = some real) : literal.reprint = ofReal real := by
  rw [reprint, number?, noInteger, isReal]
  rfl

theorem exists_reprint_of_not_fitsWord (outside : ¬literal.FitsWord)
    (inRange : literal.number?.isSome) :
    ∃ real, literal.real? = some real ∧ literal.reprint = ofReal real := by
  have noInteger := integer?_of_not_fitsWord outside
  rw [number?, noInteger, Option.orElse_none, Option.isSome_map, Option.isSome_iff_exists]
    at inRange
  rcases inRange with ⟨real, isReal⟩
  exact ⟨real, isReal, reprint_of_real? noInteger isReal⟩

theorem negative_of_real? (isReal : literal.real? = some real) :
    real.negative = literal.negative := by
  rw [real?_eq] at isReal
  rcases Option.bind_eq_some_iff.mp isReal with ⟨rank, _, isRank⟩
  unfold Double.ofRank? at isRank
  split at isRank
  · cases isRank
    rfl
  · cases isRank

/-- A number that is read as a binary number keeps its value if it is the shortest decimal of
this binary number. -/
theorem keepsValue_iff_of_real? (noInteger : literal.integer? = none)
    (isReal : literal.real? = some real) :
    literal.KeepsValue ↔
      literal.magnitude =
        (real.shortest .even).digits * (10 : ℚ) ^ (real.shortest .even).exponent := by
  have sameSign : (ofReal real).negative = literal.negative := by
    rw [ofReal, negative_ofDecimal, negative_of_real? isReal]
  rw [KeepsValue, reprint_of_real? noInteger isReal, value, value, sameSign, ofReal,
    magnitude_ofDecimal]
  split
  · rw [neg_inj, eq_comm]
  · rw [eq_comm]

end Real

def IsShort (literal : Literal) : Prop :=
  ∃ digits zeros : Nat, digits < 10 ^ 17 ∧ literal.wholeValue.natAbs = digits * 10 ^ zeros

/-- An integer that does not fit 64 bits keeps its value only if it is short. -/
theorem isShort_of_keepsValue (isInteger : literal.IsInteger) (outside : ¬literal.FitsWord)
    (inRange : literal.number?.isSome) (kept : literal.KeepsValue) : literal.IsShort := by
  rcases exists_reprint_of_not_fitsWord outside inRange with ⟨real, isReal, _⟩
  rw [keepsValue_iff_of_real? (integer?_of_not_fitsWord outside) isReal,
    magnitude_of_integer isInteger.1 isInteger.2] at kept
  have bounded := real.digits_shortest_le .even
  generalize real.shortest .even = decimal at kept bounded
  have same : literal.wholeValue.natAbs = Nat.ofDigitChars 10 literal.whole 0 := by
    rw [wholeValue]
    split <;> omega
  have large : 10 ^ 17 < literal.wholeValue.natAbs := by
    unfold FitsWord at outside
    omega
  rw [← same] at kept
  cases exponent : decimal.exponent with
  | ofNat zeros =>
      rw [exponent, Int.ofNat_eq_natCast, zpow_natCast] at kept
      have kept : literal.wholeValue.natAbs = decimal.digits * 10 ^ zeros := by
        exact_mod_cast kept
      rcases Nat.lt_or_eq_of_le bounded with several | single
      · exact ⟨decimal.digits, zeros, several, kept⟩
      · refine ⟨1, 17 + zeros, by decide, ?_⟩
        rw [kept, single, pow_add, Nat.one_mul]
  | negSucc places =>
      have atMost : (literal.wholeValue.natAbs : ℚ) ≤ decimal.digits := by
        rw [kept, exponent, zpow_negSucc]
        exact mul_le_of_le_one_right (by positivity)
          (inv_le_one_of_one_le₀ (one_le_pow₀ (by norm_num)))
      have atMost : literal.wholeValue.natAbs ≤ decimal.digits := by exact_mod_cast atMost
      omega

end Integers

end Relay.Json.Literal
