import Relay.Json.Text
import Relay.Text.Reader

namespace Relay.Json

/-! Reading JSON texts. A text is one value between blanks. Arrays and objects
may be nested in each other `maximalDepth` times; the readers of values recurse
on the levels that are still allowed. -/

open Relay.Text (hexDigit? readDigits readSign dropWord)

def isBlank (character : Char) : Bool :=
  character = ' ' || character = '\t' || character = '\n' || character = '\x0d'

def skipBlanks (text : List Char) : List Char := text.dropWhile isBlank

/-! ## Numbers -/

def readWhole : List Char → Option (List Char × List Char)
  | '0' :: rest => some (['0'], rest)
  | text => readDigits text

def readFraction : List Char → Option (Option (List Char) × List Char)
  | '.' :: text => (readDigits text).map fun (digits, rest) => (some digits, rest)
  | text => some (none, text)

def readExponent : List Char → Option (Option (Bool × List Char) × List Char)
  | [] => some (none, [])
  | letter :: text =>
      if letter = 'e' ∨ letter = 'E' then
        let (negative, text) := readSign text
        (readDigits text).map fun (digits, rest) => (some (negative, digits), rest)
      else some (none, letter :: text)

def readMagnitude (negative : Bool) (text : List Char) : Option (Literal × List Char) := do
  let (whole, text) ← readWhole text
  let (fraction, text) ← readFraction text
  let (exponent, text) ← readExponent text
  some (⟨negative, whole, fraction, exponent⟩, text)

def readLiteral : List Char → Option (Literal × List Char)
  | '-' :: text => readMagnitude true text
  | text => readMagnitude false text

def readNumber (text : List Char) : Option (Number × List Char) := do
  let (literal, rest) ← readLiteral text
  let number ← literal.number?
  some (number, rest)

/-! ## Strings -/

def unit? (first second third fourth : Char) : Option Nat := do
  let first ← hexDigit? first
  let second ← hexDigit? second
  let third ← hexDigit? third
  let fourth ← hexDigit? fourth
  some (((first * 16 + second) * 16 + third) * 16 + fourth)

def isHighSurrogate (unit : Nat) : Bool := 0xd800 ≤ unit ∧ unit < 0xdc00

def isLowSurrogate (unit : Nat) : Bool := 0xdc00 ≤ unit ∧ unit < 0xe000

def surrogatePair (high low : Nat) : Char :=
  Char.ofNat (0x10000 + (high - 0xd800) * 0x400 + (low - 0xdc00))

def shortEscaped? : Char → Option Char
  | '"' => some '"'
  | '\\' => some '\\'
  | '/' => some '/'
  | 'b' => some '\x08'
  | 'f' => some '\x0c'
  | 'n' => some '\n'
  | 'r' => some '\x0d'
  | 't' => some '\t'
  | _ => none

/-- The characters of a string up to its closing quote. Surrogates are accepted
in pairs only, and control characters only as escapes. -/
def readCharacters : List Char → Option (List Char × List Char)
  | [] => none
  | '"' :: rest => some ([], rest)
  | '\\' :: 'u' :: a :: b :: c :: d :: rest =>
      match unit? a b c d with
      | none => none
      | some unit =>
          if isHighSurrogate unit then
            match rest with
            | '\\' :: 'u' :: e :: f :: g :: h :: rest =>
                match unit? e f g h with
                | none => none
                | some low =>
                    if isLowSurrogate low then
                      (readCharacters rest).map fun (characters, rest) =>
                        (surrogatePair unit low :: characters, rest)
                    else none
            | _ => none
          else if isLowSurrogate unit then none
          else
            (readCharacters rest).map fun (characters, rest) =>
              (Char.ofNat unit :: characters, rest)
  | '\\' :: letter :: rest =>
      match shortEscaped? letter with
      | none => none
      | some character =>
          (readCharacters rest).map fun (characters, rest) =>
            (character :: characters, rest)
  | character :: rest =>
      if character.toNat < 0x20 then none
      else
        (readCharacters rest).map fun (characters, rest) =>
          (character :: characters, rest)

def readString : List Char → Option (String × List Char)
  | '"' :: text =>
      (readCharacters text).map fun (characters, rest) => (String.ofList characters, rest)
  | _ => none

example : readString "\"a\\u00e9\\ud83d\\ude00\"!".toList = some ("aé😀", ['!']) := by
  decide +kernel

/-! ## Arrays and objects -/

/-- Items with a comma between any two, up to a closing character. Every item
takes at least one character, so the length of the text bounds their number. -/
def readItems {α : Type} (item : Reader α) (close : Char) : Nat → Reader (List α)
  | 0, _ => none
  | bound + 1, text =>
      match item text with
      | none => none
      | some (first, text) =>
          match skipBlanks text with
          | [] => none
          | character :: rest =>
              if character = ',' then
                (readItems item close bound rest).map fun (others, rest) =>
                  (first :: others, rest)
              else if character = close then some ([first], rest)
              else none

def readEnclosed {α : Type} (item : Reader α) (close : Char) (text : List Char) :
    Option (List α × List Char) :=
  match skipBlanks text with
  | [] => none
  | character :: rest =>
      if character = close then some ([], rest)
      else readItems item close (text.length + 1) text

def readMember (value : Reader Json) (text : List Char) :
    Option ((String × Json) × List Char) :=
  match readString (skipBlanks text) with
  | none => none
  | some (key, text) =>
      match skipBlanks text with
      | ':' :: text => (value text).map fun (value, rest) => ((key, value), rest)
      | _ => none

/-! ## Values -/

def readScalar : Reader Json
  | 'n' :: text => (dropWord "ull".toList text).map fun rest => (.null, rest)
  | 't' :: text => (dropWord "rue".toList text).map fun rest => (.boolean true, rest)
  | 'f' :: text => (dropWord "alse".toList text).map fun rest => (.boolean false, rest)
  | '"' :: text => (readString ('"' :: text)).map fun (value, rest) => (.string value, rest)
  | text => (readNumber text).map fun (value, rest) => (.number value, rest)

/-- A value after blanks, with at most the given number of nested levels. -/
def readValue : Nat → Reader Json
  | 0, text =>
      match skipBlanks text with
      | '[' :: _ => none
      | '{' :: _ => none
      | text => readScalar text
  | levels + 1, text =>
      match skipBlanks text with
      | '[' :: text =>
          (readEnclosed (readValue levels) ']' text).map fun (elements, rest) =>
            (.array (.ofList elements), rest)
      | '{' :: text =>
          (readEnclosed (readMember (readValue levels)) '}' text).map fun (members, rest) =>
            (.object (.ofList members), rest)
      | text => readScalar text

def maximalDepth : Nat := 127

def parse? (text : List Char) : Option Json :=
  match readValue maximalDepth text with
  | none => none
  | some (value, rest) => if skipBlanks rest = [] then some value else none

example : parse? " [ 1 , -0 ] ".toList =
    some (.array (.ofList [.number (.integer 1 (by decide)),
      .number (.real ⟨true, 0, by decide⟩)])) := by decide +kernel

example : parse? "[1,]".toList = none ∧ parse? "01".toList = none ∧
    parse? "1 2".toList = none := by decide +kernel

end Relay.Json
