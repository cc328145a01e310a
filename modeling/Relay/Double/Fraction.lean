namespace Relay

/-! Non-negative fractions, kept as two naturals. Every rounding of this library
is decided on fractions in exact arithmetic, so that no intermediate result is
rounded a second time. -/

/-- The number `numerator / denominator`. The denominator is meant to be
positive; nothing reduces the pair. -/
structure Fraction where
  numerator : Nat
  denominator : Nat
  deriving DecidableEq, Repr

namespace Fraction

@[reducible] def ofNat (value : Nat) : Fraction := ⟨value, 1⟩

def scale (value : Fraction) (base : Nat) : Int → Fraction
  | .ofNat exponent => ⟨value.numerator * Nat.pow base exponent, value.denominator⟩
  | .negSucc exponent =>
      ⟨value.numerator, value.denominator * Nat.pow base (exponent + 1)⟩

example : (ofNat 3).scale 10 2 = ⟨300, 1⟩ := by decide

example : (ofNat 3).scale 10 (-2) = ⟨3, 100⟩ := by decide

def mul (left right : Fraction) : Fraction :=
  ⟨left.numerator * right.numerator, left.denominator * right.denominator⟩

def div (left right : Fraction) : Fraction :=
  ⟨left.numerator * right.denominator, left.denominator * right.numerator⟩

def middle (left right : Fraction) : Fraction :=
  ⟨left.numerator * right.denominator + right.numerator * left.denominator,
    2 * (left.denominator * right.denominator)⟩

example : middle (ofNat 1) (ofNat 2) = ⟨3, 2⟩ := by decide

def le (left right : Fraction) : Bool :=
  left.numerator * right.denominator ≤ right.numerator * left.denominator

def lt (left right : Fraction) : Bool :=
  left.numerator * right.denominator < right.numerator * left.denominator

def compareHalf (value : Fraction) : Ordering :=
  compare (2 * (value.numerator % value.denominator)) value.denominator

def roundEven (value : Fraction) : Nat :=
  let below := value.numerator / value.denominator
  match value.compareHalf with
  | .lt => below
  | .gt => below + 1
  | .eq => below + below % 2

example : roundEven ⟨5, 2⟩ = 2 ∧ roundEven ⟨7, 2⟩ = 4 ∧ roundEven ⟨8, 3⟩ = 3 := by
  decide

def roundUp (value : Fraction) : Nat :=
  let below := value.numerator / value.denominator
  match value.compareHalf with
  | .lt => below
  | _ => below + 1

example : roundUp ⟨5, 2⟩ = 3 ∧ roundUp ⟨7, 3⟩ = 2 := by decide

/-- The exponent of the greatest power of two that is at most a positive
value. The two logarithms leave only one other candidate. -/
def binaryExponent (value : Fraction) : Int :=
  let guess : Int := (value.numerator.log2 : Int) - value.denominator.log2
  let scaled := value.scale 2 (-guess)
  if scaled.denominator ≤ scaled.numerator then guess else guess - 1

example : binaryExponent ⟨1, 1⟩ = 0 ∧ binaryExponent ⟨7, 2⟩ = 1 ∧
    binaryExponent ⟨1, 3⟩ = -2 := by decide

/-- Where the decimal point of a positive value stands: the `point` with
`10 ^ (point - 1) ≤ value < 10 ^ point`. It counts the digits of the integral
part, or else the zeros that follow the point. -/
def decimalPoint (value : Fraction) : Int :=
  if value.denominator ≤ value.numerator then
    (Nat.toDigits 10 (value.numerator / value.denominator)).length
  else
    1 - ((Nat.toDigits 10 ((value.denominator - 1) / value.numerator)).length : Int)

example : decimalPoint ⟨1, 1⟩ = 1 ∧ decimalPoint ⟨1234, 10⟩ = 3 ∧
    decimalPoint ⟨1, 10⟩ = 0 ∧ decimalPoint ⟨1, 20⟩ = -1 := by decide

end Fraction

end Relay
