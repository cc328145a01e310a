import Relay.Proofs.Json.Literals

namespace Relay

/-! The literals of numbers. The text of a number is the text of a literal, so
that the reader comes to its end. An integer is read back. A binary number is
read as what its literal stands for, which the reader computes in one pass and
not exactly; `ReadsBack` says of a number that this is the number itself. -/

/-! ## Reduced decimals -/

theorem Decimal.exponent_reduce_of_zero (digits : Nat) (exponent : Int) :
    (reduce digits exponent).digits = 0 → (reduce digits exponent).exponent = 0 := by
  induction digits, exponent using reduce.induct with
  | case1 exponent =>
      intro _
      simp [reduce]
  | case2 digits exponent positive divisible induction =>
      rw [reduce, if_neg positive, if_pos divisible]
      exact induction
  | case3 digits exponent positive others =>
      intro isZero
      rw [reduce, if_neg positive, if_neg others] at isZero
      exact absurd isZero positive

theorem Double.exponent_shortestFrom_of_zero (tie : Tie) (rank : Nat) (point : Int)
    (count attempts : Nat) :
    (shortestFrom tie rank point count attempts).digits = 0 →
      (shortestFrom tie rank point count attempts).exponent = 0 := by
  induction attempts generalizing count with
  | zero =>
      intro _
      rfl
  | succ attempts induction =>
      simp only [shortestFrom]
      cases onGrid? tie rank (point - count) with
      | none => exact induction (count + 1)
      | some digits => exact Decimal.exponent_reduce_of_zero digits (point - count)

theorem Double.exponent_shortest_of_zero (tie : Tie) (number : Double) :
    (number.shortest tie).digits = 0 → (number.shortest tie).exponent = 0 := by
  unfold shortest
  split
  · intro _
    rfl
  · exact exponent_shortestFrom_of_zero tie _ _ _ _

namespace Json

namespace Literal

/-! ## Integers -/

def ofInteger (value : Int) : Literal :=
  ⟨value < 0, Nat.toDigits 10 value.natAbs, none, none⟩

theorem text_ofInteger (value : Int) : (ofInteger value).text = Number.integerText value := by
  cases value with
  | ofNat value =>
      simp [ofInteger, text, magnitudeText, fractionText, exponentText,
        Number.integerText]
  | negSucc value =>
      have negative : Int.negSucc value < 0 := Int.negSucc_lt_zero value
      simp [ofInteger, text, magnitudeText, fractionText, exponentText, negative,
        Number.integerText]

theorem isWellFormed_ofInteger (value : Int) : (ofInteger value).IsWellFormed where
  whole := by
    rcases Nat.eq_zero_or_pos value.natAbs with zero | positive
    · exact .inl (by simp [ofInteger, zero])
    · exact .inr ⟨isDigits_toDigits _, head?_toDigits positive⟩
  fraction := fun _ absent => by cases absent
  exponent := fun _ _ absent => by cases absent

theorem number?_ofInteger (value : Int)
    (fits : -0x8000000000000000 ≤ value ∧ value < 0x10000000000000000) :
    (ofInteger value).number? = some (.integer value fits) := by
  have magnitude : Nat.ofDigitChars 10 (Nat.toDigits 10 value.natAbs) 0 = value.natAbs :=
    Nat.ofDigitChars_toDigits (by decide) (by decide)
  have whole : (if decide (value < 0) = true then -(value.natAbs : Int) else value.natAbs) =
      value := by
    split
    · rename_i negative
      have := of_decide_eq_true negative
      omega
    · rename_i positive
      have := of_decide_eq_false (Bool.eq_false_iff.mpr positive)
      omega
  have integer : (ofInteger value).integer? = some (.integer value fits) := by
    simp only [integer?, ofInteger, magnitude, whole]
    rw [if_neg, dif_pos fits]
    simp
    omega
  rw [number?, integer]
  rfl

/-! ## Decimals -/

def positional (negative : Bool) (digits : List Char) : Int → Literal
  | .ofNat 0 => ⟨negative, ['0'], some digits, none⟩
  | .ofNat point =>
      if digits.length ≤ point then
        ⟨negative, digits ++ List.replicate (point - digits.length) '0', some ['0'], none⟩
      else ⟨negative, digits.take point, some (digits.drop point), none⟩
  | .negSucc zeros =>
      ⟨negative, ['0'], some (List.replicate (zeros + 1) '0' ++ digits), none⟩

def scientific (negative : Bool) (digits : List Char) (exponent : Int) : Literal :=
  ⟨negative, digits.take 1, if digits.length = 1 then none else some (digits.drop 1),
    some (exponent < 0, Nat.toDigits 10 exponent.natAbs)⟩

def ofDecimal (negative : Bool) (decimal : Decimal) : Literal :=
  if Number.isPositional decimal.point then positional negative decimal.text decimal.point
  else scientific negative decimal.text (decimal.point - 1)

theorem positional_succ (negative : Bool) (digits : List Char) (point : Nat) :
    positional negative digits (.ofNat (point + 1)) =
      if digits.length ≤ point + 1 then
        ⟨negative, digits ++ List.replicate (point + 1 - digits.length) '0', some ['0'],
          none⟩
      else ⟨negative, digits.take (point + 1), some (digits.drop (point + 1)), none⟩ := rfl

theorem decimal_positional_succ (digits : List Char) (point : Nat) :
    Decimal.positional digits (.ofNat (point + 1)) =
      if digits.length ≤ point + 1 then
        digits ++ List.replicate (point + 1 - digits.length) '0'
      else digits.take (point + 1) ++ '.' :: digits.drop (point + 1) := rfl

theorem negative_ofDecimal (negative : Bool) (decimal : Decimal) :
    (ofDecimal negative decimal).negative = negative := by
  unfold ofDecimal
  split
  · unfold positional
    split
    · rfl
    · split <;> rfl
    · rfl
  · rfl

theorem magnitudeText_positional (negative : Bool) {digits : List Char}
    (noPoint : '.' ∉ digits) (point : Int) :
    (positional negative digits point).magnitudeText =
      if (Decimal.positional digits point).contains '.' then Decimal.positional digits point
      else Decimal.positional digits point ++ ".0".toList := by
  cases point with
  | ofNat point =>
      cases point with
      | zero =>
          rw [positional, Decimal.positional]
          simp [magnitudeText, fractionText, exponentText]
      | succ point =>
          rw [positional_succ, decimal_positional_succ]
          by_cases short : digits.length ≤ point + 1
          · simp [short, magnitudeText, fractionText, exponentText, noPoint]
          · simp [short, magnitudeText, fractionText, exponentText]
  | negSucc zeros => simp [positional, magnitudeText, fractionText, exponentText,
      Decimal.positional]

theorem exponentText_eq (exponent : Int) :
    exponentText (some (decide (exponent < 0), Nat.toDigits 10 exponent.natAbs)) =
      Number.exponentText exponent := by
  cases exponent with
  | ofNat exponent => simp [exponentText, Number.exponentText]
  | negSucc exponent => simp [exponentText, Number.exponentText, Int.negSucc_lt_zero]

theorem magnitudeText_ofDecimal (negative : Bool) (decimal : Decimal) :
    (ofDecimal negative decimal).magnitudeText = Number.magnitudeText decimal := by
  have noPoint : '.' ∉ decimal.text := by
    intro member
    have isDigit := (isDigits_toDigits decimal.digits).2 '.' member
    cases isDigit
  unfold ofDecimal Number.magnitudeText
  split
  · exact magnitudeText_positional negative noPoint decimal.point
  · simp only [scientific, magnitudeText, exponentText_eq]
    cases written : decimal.text with
    | nil => exact absurd written Nat.toDigits_ne_nil
    | cons digit others =>
        cases others with
        | nil => simp [fractionText]
        | cons next others => simp [fractionText]

/-- Digits do not start with a zero, unless they are a single zero before the
point. -/
def FitsPoint (digits : List Char) (point : Int) : Prop :=
  digits.head? ≠ some '0' ∨ digits = ['0'] ∧ point = 1

theorem isWellFormed_positional (negative : Bool) {digits : List Char} {point : Int}
    (isDigits : IsDigits digits) (fits : FitsPoint digits point) :
    (positional negative digits point).IsWellFormed := by
  cases point with
  | ofNat point =>
      cases point with
      | zero =>
          exact ⟨.inl rfl, fun _ present => by cases present; exact isDigits,
            fun _ _ absent => by cases absent⟩
      | succ point =>
          by_cases short : digits.length ≤ point + 1
          · rw [positional_succ, if_pos short]
            refine ⟨?_, fun _ present => by cases present; exact isDigits_zero,
              fun _ _ absent => by cases absent⟩
            rcases fits with noZero | ⟨single, atOne⟩
            · right
              refine ⟨isDigits.append_zeros _, ?_⟩
              cases digits with
              | nil => exact absurd rfl isDigits.1
              | cons digit others => exact noZero
            · left
              have isOne : point + 1 = 1 := Int.ofNat.inj atOne
              simp [single, isOne]
          · rw [positional_succ, if_neg short]
            refine ⟨?_, fun _ present => by
              cases present; exact isDigits.drop (Nat.lt_of_not_le short),
              fun _ _ absent => by cases absent⟩
            right
            refine ⟨isDigits.take point, ?_⟩
            rcases fits with noZero | ⟨single, _⟩
            · cases digits with
              | nil => exact absurd rfl isDigits.1
              | cons digit others => exact noZero
            · simp [single] at short
  | negSucc zeros =>
      exact ⟨.inl rfl,
        fun _ present => by cases present; exact isDigits.zeros_append (zeros + 1),
        fun _ _ absent => by cases absent⟩

theorem isWellFormed_scientific (negative : Bool) {digits : List Char} (exponent : Int)
    (isDigits : IsDigits digits) (noZero : digits.head? ≠ some '0') :
    (scientific negative digits exponent).IsWellFormed where
  whole := by
    right
    refine ⟨isDigits.take 0, ?_⟩
    cases digits with
    | nil => exact absurd rfl isDigits.1
    | cons digit others => exact noZero
  fraction := by
    intro others present
    simp only [scientific] at present
    split at present
    · cases present
    · rename_i several
      cases present
      have positive := List.length_pos_iff.mpr isDigits.1
      exact isDigits.drop (by omega)
  exponent := by
    intro isNegative exponentDigits present
    cases present
    exact isDigits_toDigits _

theorem fitsPoint {decimal : Decimal}
    (zero : decimal.digits = 0 → decimal.exponent = 0) :
    FitsPoint decimal.text decimal.point := by
  rcases Nat.eq_zero_or_pos decimal.digits with isZero | positive
  · right
    simp [Decimal.point, Decimal.text, isZero, zero isZero]
  · exact .inl (head?_toDigits positive)

theorem isWellFormed_ofDecimal (negative : Bool) {decimal : Decimal}
    (zero : decimal.digits = 0 → decimal.exponent = 0) :
    (ofDecimal negative decimal).IsWellFormed := by
  have isDigits : IsDigits decimal.text := isDigits_toDigits decimal.digits
  unfold ofDecimal
  split
  · exact isWellFormed_positional negative isDigits (fitsPoint zero)
  · rename_i outside
    apply isWellFormed_scientific negative _ isDigits
    rcases fitsPoint zero with noZero | ⟨_, atOne⟩
    · exact noZero
    · rw [atOne] at outside
      exact absurd rfl outside

/-- A decimal has a fraction or an exponent, so that it is no integer. -/
theorem integer?_ofDecimal (negative : Bool) (decimal : Decimal) :
    (ofDecimal negative decimal).integer? = none := by
  unfold ofDecimal
  split
  · unfold positional
    split
    · rfl
    · split <;> rfl
    · rfl
  · simp [scientific, integer?]

def ofReal (number : Double) : Literal := ofDecimal number.negative (number.shortest .even)

theorem text_ofReal (number : Double) : (ofReal number).text = Number.realText number := by
  unfold text Number.realText ofReal
  rw [negative_ofDecimal, magnitudeText_ofDecimal]

theorem isWellFormed_ofReal (number : Double) : (ofReal number).IsWellFormed :=
  isWellFormed_ofDecimal _ (number.exponent_shortest_of_zero .even)

end Literal

/-! ## Numbers -/

theorem readNumber_literal {literal : Literal} (wellFormed : literal.IsWellFormed)
    {rest : List Char} (ends : EndsNumber rest) :
    readNumber (literal.text ++ rest) = literal.number?.map fun number => (number, rest) := by
  unfold readNumber
  rw [Literal.readLiteral_text wellFormed ends]
  change literal.number?.bind _ = _
  cases literal.number? <;> rfl

end Json

open Json

def Double.reread? (value : Double) : Option Double := (Literal.ofReal value).real?

def Double.ReadsBack (value : Double) : Prop :=
  readNumber (Number.realText value) = some (.real value, [])

instance (value : Double) : Decidable value.ReadsBack :=
  inferInstanceAs (Decidable (_ = _))

theorem Json.Literal.number?_ofReal (value : Double) :
    (Literal.ofReal value).number? = value.reread?.map Number.real := by
  rw [number?, ofReal, integer?_ofDecimal]
  rfl

namespace Json

def Number.reread? : Number → Option Number
  | .integer value fits => some (.integer value fits)
  | .real value => value.reread?.map .real

def Number.literal : Number → Literal
  | .integer value _ => .ofInteger value
  | .real value => .ofReal value

theorem Number.isWellFormed_literal (number : Number) : number.literal.IsWellFormed := by
  cases number with
  | integer value _ => exact Literal.isWellFormed_ofInteger value
  | real value => exact Literal.isWellFormed_ofReal value

theorem Number.text_literal (number : Number) : number.literal.text = number.text := by
  cases number with
  | integer value _ => exact Literal.text_ofInteger value
  | real value => exact Literal.text_ofReal value

theorem Number.number?_literal (number : Number) : number.literal.number? = number.reread? := by
  cases number with
  | integer value fits => exact Literal.number?_ofInteger value fits
  | real value => exact Literal.number?_ofReal value

theorem readNumber_text (number : Number) {rest : List Char} (ends : EndsNumber rest) :
    readNumber (number.text ++ rest) = number.reread?.map fun number => (number, rest) := by
  rw [← number.text_literal, readNumber_literal number.isWellFormed_literal ends,
    number.number?_literal]

end Json

theorem Double.readsBack_iff (value : Double) :
    value.ReadsBack ↔ value.reread? = some value := by
  have read := readNumber_text (.real value) (stops_nil continuesNumber)
  rw [List.append_nil] at read
  rw [ReadsBack, ← Number.text, read, Number.reread?]
  cases value.reread? <;> simp

end Relay
