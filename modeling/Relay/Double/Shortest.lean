import Relay.Double

namespace Relay

/-! The shortest decimal text of a finite number: the fewest digits that are
read back as the same number, and of those the nearest to its exact value. -/

structure Decimal where
  digits : Nat
  exponent : Int
  deriving DecidableEq, Repr

namespace Decimal

def reduce (digits : Nat) (exponent : Int) : Decimal :=
  if digits = 0 then ⟨0, 0⟩
  else if digits % 10 = 0 then reduce (digits / 10) (exponent + 1)
  else ⟨digits, exponent⟩
termination_by digits
decreasing_by omega

def text (decimal : Decimal) : List Char := Nat.toDigits 10 decimal.digits

def point (decimal : Decimal) : Int := decimal.text.length + decimal.exponent

/-- Digits with their decimal point, without an exponent. `point` counts from
the first digit; missing places on either side are filled with zeros. -/
def positional (digits : List Char) : Int → List Char
  | .ofNat 0 => '0' :: '.' :: digits
  | .ofNat point =>
      if digits.length ≤ point then
        digits ++ List.replicate (point - digits.length) '0'
      else digits.take point ++ '.' :: digits.drop point
  | .negSucc zeros => '0' :: '.' :: List.replicate (zeros + 1) '0' ++ digits

example : positional ['1', '2'] 1 = "1.2".toList ∧
    positional ['1', '2'] 3 = "120".toList ∧
    positional ['1', '2'] (-1) = "0.012".toList := by decide

end Decimal

/-- Which of two digits ends a text that lies equally near to both. -/
inductive Tie where
  | even
  | greater
  deriving DecidableEq, Repr

namespace Double

/-- Whether a fraction is read back as the number at a positive rank: it lies
between the middles towards both neighbours, which themselves belong to the
even rank. -/
def roundsTo (rank : Nat) (value : Fraction) : Bool :=
  let low := (valueAt (rank - 1)).middle (valueAt rank)
  let high := (valueAt rank).middle (valueAt (rank + 1))
  if rank % 2 = 0 then low.le value && value.le high
  else low.lt value && value.lt high

/-- The decimal nearest to a rank among its two neighbours on the grid of
multiples of `10 ^ grid`, if one of them is read back as that rank. -/
def onGrid? (tie : Tie) (rank : Nat) (grid : Int) : Option Nat :=
  let scaled := (valueAt rank).scale 10 (-grid)
  let below := scaled.numerator / scaled.denominator
  let above := below + 1
  let fits (digits : Nat) := roundsTo rank ((Fraction.ofNat digits).scale 10 grid)
  let nearer :=
    match tie with
    | .even => scaled.roundEven
    | .greater => scaled.roundUp
  if fits nearer then some nearer
  else if fits below then some below
  else if fits above then some above
  else none

def shortestFrom (tie : Tie) (rank : Nat) (point : Int) : Nat → Nat → Decimal
  | _, 0 => ⟨0, 0⟩
  | count, attempts + 1 =>
      let grid := point - count
      match onGrid? tie rank grid with
      | some digits => Decimal.reduce digits grid
      | none => shortestFrom tie rank point (count + 1) attempts

def shortest (tie : Tie) (number : Double) : Decimal :=
  if number.rank = 0 then ⟨0, 0⟩
  else shortestFrom tie number.rank number.magnitude.decimalPoint 1 17

example : (ofDecimal? false 3 (-1)).map (shortest .even) = some ⟨3, -1⟩ := by
  decide +kernel

example : (ofRank? false 1).map (shortest .even) = some ⟨5, -324⟩ := by
  decide +kernel

/-- A value halfway between its two shortest texts shows the rule for ties. -/
example : (ofDecimal? false 112589990684262425 (-2)).map
    (fun number => ((number.shortest .even).digits, (number.shortest .greater).digits)) =
    some (11258999068426242, 11258999068426243) := by decide +kernel

end Double

end Relay
