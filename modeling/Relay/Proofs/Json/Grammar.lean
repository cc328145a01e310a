import Relay.Json.Number
import Relay.Text.Digits

namespace Relay.Json

/-! The grammar of JSON texts. A text is derived from a phrase: the value as it is
written, with its numbers as literals, its members in their order and every key as often
as it occurs. Every rule is a relation between what is derived, a text that starts with
it and the rest of this text. Nothing here limits how deep values are nested or how large
numbers are. -/

open Relay.Text (isDigitOf valueOf)

/-! ## Phrases -/

mutual
inductive Phrase where
  | null
  | boolean (value : Bool)
  | number (literal : Literal)
  | string (value : String)
  | array (elements : Phrases)
  | object (members : Entries)

inductive Phrases where
  | nil
  | cons (head : Phrase) (tail : Phrases)

inductive Entries where
  | nil
  | cons (key : String) (value : Phrase) (rest : Entries)
end

mutual
def Phrase.depth : Phrase → Nat
  | .array elements => elements.depth + 1
  | .object members => members.depth + 1
  | .null | .boolean _ | .number _ | .string _ => 0

def Phrases.depth : Phrases → Nat
  | .nil => 0
  | .cons head tail => max head.depth tail.depth

def Entries.depth : Entries → Nat
  | .nil => 0
  | .cons _ value rest => max value.depth rest.depth
end

mutual
def Phrase.literals : Phrase → List Literal
  | .number literal => [literal]
  | .array elements => elements.literals
  | .object members => members.literals
  | .null | .boolean _ | .string _ => []

def Phrases.literals : Phrases → List Literal
  | .nil => []
  | .cons head tail => head.literals ++ tail.literals

def Entries.literals : Entries → List Literal
  | .nil => []
  | .cons _ value rest => value.literals ++ rest.literals
end

def Phrase.kind : Phrase → String
  | .null => "null"
  | .boolean _ => "boolean"
  | .number _ => "number"
  | .string _ => "string"
  | .array _ => "array"
  | .object _ => "object"

namespace Grammar

/-! ## Blanks -/

inductive Blanks : List Char → List Char → Prop
  | none {rest} : Blanks rest rest
  | more {blank text rest} : blank ∈ [' ', '\t', '\n', '\x0d'] → Blanks text rest →
      Blanks (blank :: text) rest

/-! ## Numbers -/

inductive Digits : List Char → List Char → List Char → Prop
  | last {digit rest} : digit.isDigit = true → Digits [digit] (digit :: rest) rest
  | more {digit digits text rest} : digit.isDigit = true → Digits digits text rest →
      Digits (digit :: digits) (digit :: text) rest

/-- Only a single zero starts with a zero. -/
inductive WholePart : List Char → List Char → List Char → Prop
  | zero {rest} : WholePart ['0'] ('0' :: rest) rest
  | digits {digit digits text rest} : Digits (digit :: digits) text rest → digit ≠ '0' →
      WholePart (digit :: digits) text rest

inductive FractionPart : Option (List Char) → List Char → List Char → Prop
  | absent {rest} : FractionPart none rest rest
  | point {digits text rest} : Digits digits text rest →
      FractionPart (some digits) ('.' :: text) rest

inductive ExponentPart : Option (Bool × List Char) → List Char → List Char → Prop
  | absent {rest} : ExponentPart none rest rest
  | unsigned {letter digits text rest} : letter ∈ ['e', 'E'] → Digits digits text rest →
      ExponentPart (some (false, digits)) (letter :: text) rest
  | positive {letter digits text rest} : letter ∈ ['e', 'E'] → Digits digits text rest →
      ExponentPart (some (false, digits)) (letter :: '+' :: text) rest
  | negative {letter digits text rest} : letter ∈ ['e', 'E'] → Digits digits text rest →
      ExponentPart (some (true, digits)) (letter :: '-' :: text) rest

inductive Magnitude : Literal → List Char → List Char → Prop
  | parts {negative whole fraction exponent text afterWhole afterFraction rest} :
      WholePart whole text afterWhole → FractionPart fraction afterWhole afterFraction →
      ExponentPart exponent afterFraction rest →
      Magnitude ⟨negative, whole, fraction, exponent⟩ text rest

inductive Numeral : Literal → List Char → List Char → Prop
  | positive {literal text rest} : literal.negative = false → Magnitude literal text rest →
      Numeral literal text rest
  | negative {literal text rest} : literal.negative = true → Magnitude literal text rest →
      Numeral literal ('-' :: text) rest

/-! ## Strings -/

def shortEscapes : List (Char × Char) :=
  [('"', '"'), ('\\', '\\'), ('/', '/'), ('b', '\x08'), ('f', '\x0c'), ('n', '\n'),
    ('r', '\x0d'), ('t', '\t')]

def IsCodeUnit (first second third fourth : Char) (unit : Nat) : Prop :=
  (∀ digit ∈ [first, second, third, fourth], isDigitOf 16 digit = true) ∧
    unit = valueOf 16 [first, second, third, fourth]

/-- The characters of a string up to its closing quote. Control characters are escaped. No
character has the number of a surrogate, so that a surrogate stands in a pair only. -/
inductive Characters : List Char → List Char → List Char → Prop
  | close {rest} : Characters [] ('"' :: rest) rest
  | plain {character others text rest} : character ≠ '"' → character ≠ '\\' →
      0x20 ≤ character.toNat → Characters others text rest →
      Characters (character :: others) (character :: text) rest
  | short {letter character others text rest} : (letter, character) ∈ shortEscapes →
      Characters others text rest →
      Characters (character :: others) ('\\' :: letter :: text) rest
  | unit {first second third fourth character others text rest} :
      IsCodeUnit first second third fourth character.toNat → Characters others text rest →
      Characters (character :: others)
        ('\\' :: 'u' :: first :: second :: third :: fourth :: text) rest
  | pair {first second third fourth fifth sixth seventh eighth high low character others
      text rest} : IsCodeUnit first second third fourth high →
      IsCodeUnit fifth sixth seventh eighth low → 0xd800 ≤ high → high < 0xdc00 →
      0xdc00 ≤ low → low < 0xe000 →
      character.toNat = 0x10000 + (high - 0xd800) * 0x400 + (low - 0xdc00) →
      Characters others text rest →
      Characters (character :: others)
        ('\\' :: 'u' :: first :: second :: third :: fourth ::
          '\\' :: 'u' :: fifth :: sixth :: seventh :: eighth :: text) rest

inductive Quoted : String → List Char → List Char → Prop
  | quotes {characters text rest} : Characters characters text rest →
      Quoted (String.ofList characters) ('"' :: text) rest

/-! ## Values -/

mutual
inductive Value : Phrase → List Char → List Char → Prop
  | nullWord {rest} : Value .null ('n' :: 'u' :: 'l' :: 'l' :: rest) rest
  | trueWord {rest} : Value (.boolean true) ('t' :: 'r' :: 'u' :: 'e' :: rest) rest
  | falseWord {rest} :
      Value (.boolean false) ('f' :: 'a' :: 'l' :: 's' :: 'e' :: rest) rest
  | number {literal text rest} : Numeral literal text rest →
      Value (.number literal) text rest
  | string {value text rest} : Quoted value text rest → Value (.string value) text rest
  | emptyArray {text rest} : Blanks text (']' :: rest) →
      Value (.array .nil) ('[' :: text) rest
  | array {elements text rest} : Items elements text rest →
      Value (.array elements) ('[' :: text) rest
  | emptyObject {text rest} : Blanks text ('}' :: rest) →
      Value (.object .nil) ('\x7b' :: text) rest
  | object {members text rest} : Fields members text rest →
      Value (.object members) ('\x7b' :: text) rest

inductive Spaced : Phrase → List Char → List Char → Prop
  | blanks {value text start rest} : Blanks text start → Value value start rest →
      Spaced value text rest

inductive Items : Phrases → List Char → List Char → Prop
  | last {head text stop rest} : Spaced head text stop → Blanks stop (']' :: rest) →
      Items (.cons head .nil) text rest
  | next {head tail text stop others rest} : Spaced head text stop →
      Blanks stop (',' :: others) → Items tail others rest →
      Items (.cons head tail) text rest

inductive Field : String → Phrase → List Char → List Char → Prop
  | pair {key value text start stop afterColon rest} : Blanks text start →
      Quoted key start stop → Blanks stop (':' :: afterColon) →
      Spaced value afterColon rest → Field key value text rest

inductive Fields : Entries → List Char → List Char → Prop
  | last {key value text stop rest} : Field key value text stop →
      Blanks stop ('}' :: rest) → Fields (.cons key value .nil) text rest
  | next {key value tail text stop others rest} : Field key value text stop →
      Blanks stop (',' :: others) → Fields tail others rest →
      Fields (.cons key value tail) text rest
end

end Grammar

open Grammar

def IsText (phrase : Phrase) (text : List Char) : Prop :=
  ∃ stop, Spaced phrase text stop ∧ Blanks stop []

end Relay.Json
