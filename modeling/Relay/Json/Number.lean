import Relay.Double.Shortest

namespace Relay.Json

/-! JSON numbers: what a literal is made of, the number it stands for and the
text of a number.

A literal without fraction and exponent is an integer if it fits 64 bits, signed
or unsigned. Every other literal is a finite binary number. It is read in one
pass with a 64-bit accumulator, so that its value may differ in the last place
from the nearest one; `Literal.real?` states that rule. -/

/-! ## Numbers -/

inductive Number where
  | integer (value : Int) (fits : -0x8000000000000000 ≤ value ∧ value < 0x10000000000000000)
  | real (value : Double)
  deriving DecidableEq, Repr

/-- An integer literal: a sign, the digits before the point, the digits after
the point and the signed exponent. The text has no fraction or no exponent if
the part is `none`; none of the lists of digits is empty. -/
structure Literal where
  negative : Bool
  whole : List Char
  fraction : Option (List Char)
  exponent : Option (Bool × List Char)
  deriving DecidableEq, Repr

namespace Literal

/-! ## The value of a literal -/

def hasRoom (accumulator digit : Nat) : Bool := accumulator * 10 + digit < UInt64.size

def digitValue (digit : Char) : Nat := digit.toNat - '0'.toNat

/-- Reads the digits before the point. From the first digit without room on,
the digits are only counted. -/
def readWhole : List Char → Nat → Nat × Nat
  | [], accumulator => (accumulator, 0)
  | digit :: rest, accumulator =>
      if hasRoom accumulator (digitValue digit) then
        readWhole rest (accumulator * 10 + digitValue digit)
      else (accumulator, rest.length + 1)

def readFraction : List Char → Nat → Nat → Nat × Nat
  | [], accumulator, kept => (accumulator, kept)
  | digit :: rest, accumulator, kept =>
      if hasRoom accumulator (digitValue digit) then
        readFraction rest (accumulator * 10 + digitValue digit) (kept + 1)
      else (accumulator, kept)

example : readWhole "18446744073709551616".toList 0 = (1844674407370955161, 1) := by
  decide

def powerOfTen (exponent : Nat) : Nat :=
  Double.nearestRank ((Fraction.ofNat 1).scale 10 exponent)

def greatestPower : Nat := 308

def rankDiv (left right : Nat) : Nat :=
  Double.nearestRank ((Double.valueAt left).div (Double.valueAt right))

def rankMul (left right : Nat) : Nat :=
  Double.nearestRank ((Double.valueAt left).mul (Double.valueAt right))

/-- Divides by a power of ten, in steps of at most the greatest power, and
rounds after each step. -/
def scaleDown (rank exponent : Nat) : Nat :=
  if exponent ≤ greatestPower then rankDiv rank (powerOfTen exponent)
  else if rank = 0 then 0
  else scaleDown (rankDiv rank (powerOfTen greatestPower)) (exponent - greatestPower)
termination_by exponent
decreasing_by simp only [greatestPower] at *; omega

/-- The rank of `accumulator * 10 ^ exponent`. The accumulator is rounded first;
the product is rounded again. A value out of range has no rank. -/
def scale? (accumulator : Nat) : Int → Option Nat
  | .ofNat exponent =>
      if accumulator = 0 then some 0
      else if exponent ≤ greatestPower then
        let rank := rankMul (Double.nearestRank (Fraction.ofNat accumulator))
          (powerOfTen exponent)
        if rank < Double.rankBound then some rank else none
      else none
  | .negSucc exponent =>
      some (scaleDown (Double.nearestRank (Fraction.ofNat accumulator)) (exponent + 1))

def exponentValue : Option (Bool × List Char) → Int
  | none => 0
  | some (false, digits) => Nat.ofDigitChars 10 digits 0
  | some (true, digits) => -(Nat.ofDigitChars 10 digits 0 : Int)

def real? (literal : Literal) : Option Double := do
  let (accumulator, uncounted) := readWhole literal.whole 0
  let (accumulator, kept) := readFraction (literal.fraction.getD []) accumulator 0
  let rank ← scale? accumulator (uncounted - kept + exponentValue literal.exponent)
  Double.ofRank? literal.negative rank

def integer? (literal : Literal) : Option Number :=
  let value : Int :=
    if literal.negative then -(Nat.ofDigitChars 10 literal.whole 0 : Int)
    else Nat.ofDigitChars 10 literal.whole 0
  if literal.fraction.isSome ∨ literal.exponent.isSome ∨
      (literal.negative ∧ value = 0) then none
  else if fits : -0x8000000000000000 ≤ value ∧ value < 0x10000000000000000 then
    some (.integer value fits)
  else none

def number? (literal : Literal) : Option Number :=
  literal.integer?.orElse fun _ => literal.real?.map Number.real

example : (Literal.mk false ['7'] none none).number? = some (.integer 7 (by decide)) := by
  decide +kernel

/-- The last place is off: the nearest number ends in 8. -/
example : ((Literal.mk false "123456789012345680000".toList none none).real?).map
    (fun number => (number.shortest .even).digits) = some 12345678901234567 := by
  decide +kernel

end Literal

/-! ## The text of a number -/

namespace Number

def isPositional (point : Int) : Bool := -5 < point ∧ point ≤ 16

def exponentText : Int → List Char
  | .ofNat exponent => 'e' :: '+' :: Nat.toDigits 10 exponent
  | .negSucc exponent => 'e' :: '-' :: Nat.toDigits 10 (exponent + 1)

/-- The shortest text of an absolute value. A positional text always has a point
and a digit after it; a text with an exponent has one digit before the point and
no point if no digit follows. -/
def magnitudeText (decimal : Decimal) : List Char :=
  let digits := decimal.text
  if isPositional decimal.point then
    let text := Decimal.positional digits decimal.point
    if text.contains '.' then text else text ++ ".0".toList
  else
    let mantissa :=
      match digits with
      | [] => []
      | [digit] => [digit]
      | digit :: rest => digit :: '.' :: rest
    mantissa ++ exponentText (decimal.point - 1)

def realText (number : Double) : List Char :=
  let text := magnitudeText (number.shortest .even)
  if number.negative then '-' :: text else text

def integerText : Int → List Char
  | .ofNat value => Nat.toDigits 10 value
  | .negSucc value => '-' :: Nat.toDigits 10 (value + 1)

def text : Number → List Char
  | .integer value _ => integerText value
  | .real value => realText value

example : magnitudeText ⟨0, 0⟩ = "0.0".toList ∧
    magnitudeText ⟨1, 15⟩ = "1000000000000000.0".toList ∧
    magnitudeText ⟨1, 16⟩ = "1e+16".toList ∧ magnitudeText ⟨1, -5⟩ = "0.00001".toList ∧
    magnitudeText ⟨25, -7⟩ = "2.5e-6".toList := by decide

end Number

end Relay.Json
