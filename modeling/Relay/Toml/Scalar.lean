import Relay.Calendar
import Relay.Double.Extended
import Relay.Text.Reader

namespace Relay.Toml

/-! Values of TOML that are written as one word: truth values, integers, numbers
with a fraction or an exponent, dates and times. A word is read as a whole. -/

inductive Scalar where
  | boolean (value : Bool)
  | integer (value : Int) (fits : -0x8000000000000000 ≤ value ∧ value < 0x8000000000000000)
  | real (value : ExtendedDouble)
  | string (value : String)
  /-- A date, a time or both, in normal form. -/
  | moment (text : String)
  deriving DecidableEq, Repr

/-! ## Numbers -/

def readSeparated (base : Nat) : List Char → Option (List Char)
  | [] => none
  | [digit] => if Text.isDigitOf base digit then some [digit] else none
  | digit :: '_' :: rest =>
      if Text.isDigitOf base digit then (readSeparated base rest).map (digit :: ·) else none
  | digit :: rest =>
      if Text.isDigitOf base digit then (readSeparated base rest).map (digit :: ·) else none

example : readSeparated 10 "1_000".toList = some "1000".toList ∧
    readSeparated 10 "1__0".toList = none ∧ readSeparated 10 "_1".toList = none := by decide

def readWhole (text : List Char) : Option (List Char) :=
  match text with
  | ['0'] => some ['0']
  | '0' :: _ => none
  | _ => readSeparated 10 text

def integer? (value : Int) : Option Scalar :=
  if fits : -0x8000000000000000 ≤ value ∧ value < 0x8000000000000000 then
    some (.integer value fits)
  else none

def signed (negative : Bool) (value : Nat) : Int := if negative then -value else value

def readExponent (text : List Char) : Option Int :=
  let (negative, text) := Text.readSign text
  (readSeparated 10 text).map fun digits => signed negative (Text.valueOf 10 digits)

def isExponentMark (character : Char) : Bool := character = 'e' || character = 'E'

def readReal (negative : Bool) (text : List Char) : Option Scalar := do
  let mantissa := text.takeWhile (!isExponentMark ·)
  let exponent ←
    match text.dropWhile (!isExponentMark ·) with
    | [] => some 0
    | _ :: rest => readExponent rest
  let whole ← readWhole (mantissa.takeWhile (· ≠ '.'))
  let fraction ←
    match mantissa.dropWhile (· ≠ '.') with
    | [] => some []
    | _ :: rest => readSeparated 10 rest
  let value ← Double.ofDecimal? negative (Text.valueOf 10 (whole ++ fraction))
    (exponent - fraction.length)
  some (.real (.finite value))

def readDecimal (negative : Bool) (text : List Char) : Option Scalar :=
  if text.any fun character => character = '.' || isExponentMark character then
    readReal negative text
  else
    (readWhole text).bind fun digits => integer? (signed negative (Text.valueOf 10 digits))

def readBased (base : Nat) (text : List Char) : Option Scalar :=
  (readSeparated base text).bind fun digits => integer? (Text.valueOf base digits)

def readNumber : List Char → Option Scalar
  | '0' :: 'x' :: text => readBased 16 text
  | '0' :: 'o' :: text => readBased 8 text
  | '0' :: 'b' :: text => readBased 2 text
  | text =>
      let (negative, text) := Text.readSign text
      match String.ofList text with
      | "inf" => some (.real (.infinite negative))
      | "nan" => some (.real .notANumber)
      | _ => readDecimal negative text

example : readNumber "-0".toList = integer? 0 ∧ readNumber "0xF_f".toList = integer? 255 ∧
    readNumber "01".toList = none ∧ readNumber "1.".toList = none ∧
    readNumber "9223372036854775808".toList = none := by decide +kernel

/-! ## Dates and times -/

def readPlaces (count : Nat) (text : List Char) : Option (Nat × List Char) :=
  let digits := text.take count
  if digits.length = count ∧ digits.all Char.isDigit then
    some (Text.valueOf 10 digits, text.drop count)
  else none

def readDate (text : List Char) : Option (List Char × List Char) := do
  let (year, text) ← readPlaces 4 text
  let (month, text) ← readPlaces 2 (← Text.dropWord ['-'] text)
  let (day, text) ← readPlaces 2 (← Text.dropWord ['-'] text)
  if 1 ≤ month ∧ month ≤ 12 ∧ 1 ≤ day ∧ day ≤ Calendar.daysInMonth year month then
    some (Text.padded 4 year ++ '-' :: Text.padded 2 month ++ '-' :: Text.padded 2 day, text)
  else none

def withoutTrailingZeros (digits : List Char) : List Char :=
  (digits.reverse.dropWhile (· = '0')).reverse

/-- The digits of a fraction of a second. Those beyond the ninth are dropped,
and so are zeros at the end. -/
def readSecondFraction : List Char → Option (List Char × List Char)
  | '.' :: text =>
      (Text.readDigits text).map fun (digits, rest) =>
        match withoutTrailingZeros (digits.take 9) with
        | [] => ([], rest)
        | digits => ('.' :: digits, rest)
  | text => some ([], text)

/-- Seconds may be left out. A minute may have a leap second. -/
def readSeconds : List Char → Option (List Char × List Char)
  | ':' :: text => do
      let (second, text) ← readPlaces 2 text
      if second ≤ 60 then
        let (fraction, text) ← readSecondFraction text
        some (':' :: Text.padded 2 second ++ fraction, text)
      else none
  | text => some (":00".toList, text)

def readTime (text : List Char) : Option (List Char × List Char) := do
  let (hour, text) ← readPlaces 2 text
  let (minute, text) ← readPlaces 2 (← Text.dropWord [':'] text)
  if hour ≤ 23 ∧ minute ≤ 59 then
    let (seconds, text) ← readSeconds text
    some (Text.padded 2 hour ++ ':' :: Text.padded 2 minute ++ seconds, text)
  else none

def readOffset (text : List Char) : Option (List Char) :=
  match text with
  | [] => some []
  | ['Z'] | ['z'] => some ['Z']
  | sign :: text => do
      let (hour, text) ← readPlaces 2 text
      let (minute, text) ← readPlaces 2 (← Text.dropWord [':'] text)
      if text = [] ∧ (sign = '+' ∨ sign = '-') ∧ hour ≤ 23 ∧ minute ≤ 59 then
        let sign := if hour = 0 ∧ minute = 0 then '+' else sign
        some (sign :: Text.padded 2 hour ++ ':' :: Text.padded 2 minute)
      else none

def readTimeWithOffset (text : List Char) : Option (List Char) := do
  let (time, text) ← readTime text
  let offset ← readOffset text
  some (time ++ offset)

def readMoment (text : List Char) : Option (List Char) :=
  match readDate text with
  | some (date, []) => some date
  | some (date, separator :: text) =>
      if separator = 'T' ∨ separator = 't' ∨ separator = ' ' then
        (readTimeWithOffset text).map fun time => date ++ 'T' :: time
      else none
  | none =>
      match readTime text with
      | some (time, []) => some time
      | _ => none

example : (readMoment "1979-05-27 07:32:00.500z".toList).map String.ofList =
    some "1979-05-27T07:32:00.5Z" ∧ readMoment "2023-02-29".toList = none ∧
    (readMoment "07:32".toList).map String.ofList = some "07:32:00" := by decide +kernel

/-! ## Words -/

def readWord (text : List Char) : Option Scalar :=
  match String.ofList text with
  | "true" => some (.boolean true)
  | "false" => some (.boolean false)
  | _ =>
      match readMoment text with
      | some moment => some (.moment (String.ofList moment))
      | none => readNumber text

end Relay.Toml
