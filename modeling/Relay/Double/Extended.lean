import Relay.Double.Shortest
import Relay.Text.Reader

namespace Relay

/-! Binary numbers together with the infinities and the value that is no number:
their texts, how a text is read and the natural nearest to one. -/

inductive ExtendedDouble where
  | finite (value : Double)
  | infinite (negative : Bool)
  | notANumber
  deriving DecidableEq, Repr

namespace ExtendedDouble

def ofDecimal (negative : Bool) (digits : Nat) (exponent : Int) : ExtendedDouble :=
  match Double.ofDecimal? negative digits exponent with
  | some value => .finite value
  | none => .infinite negative

/-! ## Writing -/

def signText (negative : Bool) : List Char := if negative then ['-'] else []

/-- The shortest digits that are read back, without an exponent. Of two such
texts that are equally near the greater one is taken. -/
def text : ExtendedDouble → List Char
  | .finite value =>
      let decimal := value.shortest .greater
      let digits :=
        if decimal.digits = 0 then ['0'] else Decimal.positional decimal.text decimal.point
      signText value.negative ++ digits
  | .infinite negative => signText negative ++ "inf".toList
  | .notANumber => "NaN".toList

def render (number : ExtendedDouble) : String := String.ofList number.text

def renderWithPoint (number : ExtendedDouble) : String :=
  match number with
  | .finite _ =>
      if number.text.contains '.' then number.render else number.render ++ ".0"
  | _ => number.render

example : (ofDecimal false 1 21).render = "1000000000000000000000" ∧
    (ofDecimal true 15 (-8)).render = "-0.00000015" ∧ (ofDecimal true 0 0).render = "-0" ∧
    (ofDecimal false 5 0).renderWithPoint = "5.0" := by decide +kernel

/-! ## Rounding -/

/-- The nearest natural below `2 ^ 64`. Halves are rounded up. -/
def toCount : ExtendedDouble → UInt64
  | .finite value =>
      if value.negative then 0 else .ofNat (min value.magnitude.roundUp (UInt64.size - 1))
  | .infinite negative => if negative then 0 else .ofNat (UInt64.size - 1)
  | .notANumber => 0

example : (ofDecimal false 25 (-1)).toCount = 3 ∧ (ofDecimal true 7 0).toCount = 0 := by
  decide +kernel

/-! ## Reading -/

def readExponent? : List Char → Option Int
  | [] => some 0
  | letter :: text =>
      if letter = 'e' ∨ letter = 'E' then
        let (negative, text) := Text.readSign text
        match Text.readDigits text with
        | some (digits, []) =>
            let value : Int := Text.valueOf 10 digits
            some (if negative then -value else value)
        | _ => none
      else none

/-- Digits with a point anywhere among them or without one. At least one digit
stands before the exponent. -/
def readMagnitude? (negative : Bool) (text : List Char) : Option ExtendedDouble :=
  let whole := Text.leadingDigits text
  let (fraction, rest) :=
    match Text.afterDigits text with
    | '.' :: rest => (Text.leadingDigits rest, Text.afterDigits rest)
    | rest => ([], rest)
  if whole ++ fraction = [] then none
  else
    (readExponent? rest).map fun exponent =>
      ofDecimal negative (Text.valueOf 10 (whole ++ fraction)) (exponent - fraction.length)

def parse? (text : List Char) : Option ExtendedDouble :=
  let (negative, text) := Text.readSign text
  match String.ofList (Text.lower text) with
  | "inf" | "infinity" => some (.infinite negative)
  | "nan" => some .notANumber
  | _ => readMagnitude? negative text

example : (parse? "+.5e1".toList).map render = some "5" ∧
    (parse? "-INFINITY".toList).map render = some "-inf" ∧
    (parse? "1e400".toList).map render = some "inf" ∧ parse? ".".toList = none ∧
    parse? "1e".toList = none ∧ parse? "1_0".toList = none := by decide +kernel

end ExtendedDouble

end Relay
