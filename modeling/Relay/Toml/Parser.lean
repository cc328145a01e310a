import Relay.Toml.Document

namespace Relay.Toml

/-! Reading TOML: a statement a line, with blanks and comments between them.
Arrays and tables in braces may be nested in each other `maximalDepth` times. -/

open Relay.Text (dropWord)

/-! ## Blanks and comments -/

def skipBlanks (text : List Char) : List Char :=
  text.dropWhile fun character => character = ' ' || character = '\t'

def isPlain (character : Char) : Bool :=
  character = '\t' || (0x20 ≤ character.toNat && character.toNat ≠ 0x7f)

def dropLineEnd : List Char → Option (List Char)
  | '\n' :: rest => some rest
  | '\x0d' :: '\n' :: rest => some rest
  | _ => none

def skipComment : List Char → List Char
  | '#' :: text => text.dropWhile isPlain
  | text => text

/-- Blanks, comments and line ends. Each round takes a line end, so that the
length of the text bounds their number. -/
def skipLines : Nat → List Char → List Char
  | 0, text => text
  | bound + 1, text =>
      let text := skipComment (skipBlanks text)
      match dropLineEnd text with
      | some rest => skipLines bound rest
      | none => text

def skipAll (text : List Char) : List Char := skipLines (text.length + 1) text

def endLine (text : List Char) : Option (List Char) :=
  match skipComment (skipBlanks text) with
  | [] => some []
  | text => dropLineEnd text

/-! ## Strings -/

def readCode (count : Nat) (text : List Char) : Option (Char × List Char) :=
  let digits := text.take count
  let code := Text.valueOf 16 digits
  if digits.length = count ∧ digits.all (Text.isDigitOf 16) ∧ code.isValidChar then
    some (Char.ofNat code, text.drop count)
  else none

def readEscape : Reader Char
  | 'b' :: rest => some ('\x08', rest)
  | 't' :: rest => some ('\t', rest)
  | 'n' :: rest => some ('\n', rest)
  | 'f' :: rest => some ('\x0c', rest)
  | 'r' :: rest => some ('\x0d', rest)
  | 'e' :: rest => some ('\x1b', rest)
  | '"' :: rest => some ('"', rest)
  | '\\' :: rest => some ('\\', rest)
  | 'x' :: rest => readCode 2 rest
  | 'u' :: rest => readCode 4 rest
  | 'U' :: rest => readCode 8 rest
  | _ => none

def readBasic : Nat → Reader (List Char)
  | 0, _ => none
  | _, [] => none
  | _, '"' :: rest => some ([], rest)
  | bound + 1, '\\' :: text => do
      let (character, text) ← readEscape text
      let (characters, rest) ← readBasic bound text
      some (character :: characters, rest)
  | bound + 1, character :: text =>
      if isPlain character then
        (readBasic bound text).map fun (characters, rest) => (character :: characters, rest)
      else none

def readLiteral (text : List Char) : Option (List Char × List Char) :=
  let isInside (character : Char) := isPlain character && character ≠ '\''
  match text.dropWhile isInside with
  | '\'' :: rest => some (text.takeWhile isInside, rest)
  | _ => none

/-- The quotes at the front of a text that ends with three of them, of which up
to two belong to the text. -/
def readClosing (quote : Char) (text : List Char) : Option (List Char × List Char) :=
  let count := min 5 (text.takeWhile (· = quote)).length
  if 3 ≤ count then some (List.replicate (count - 3) quote, text.drop count) else none

/-- A backslash at the end of a line takes all blanks and line ends after it
away. -/
def dropLineBreak (text : List Char) : Option (List Char) :=
  (dropLineEnd (skipBlanks text)).map fun rest =>
    rest.dropWhile fun character =>
      character = ' ' || character = '\t' || character = '\n' || character = '\x0d'

def readLongBasic : Nat → Reader (List Char)
  | 0, _ => none
  | _, [] => none
  | bound + 1, '\\' :: text =>
      match dropLineBreak text with
      | some text => readLongBasic bound text
      | none => do
          let (character, text) ← readEscape text
          let (characters, rest) ← readLongBasic bound text
          some (character :: characters, rest)
  | bound + 1, character :: text =>
      match readClosing '"' (character :: text) with
      | some found => some found
      | none =>
          if isPlain character ∨ (dropLineEnd (character :: text)).isSome then
            (readLongBasic bound text).map fun (characters, rest) =>
              (character :: characters, rest)
          else none

def readLongLiteral : Reader (List Char)
  | [] => none
  | character :: text =>
      match readClosing '\'' (character :: text) with
      | some found => some found
      | none =>
          if isPlain character ∨ (dropLineEnd (character :: text)).isSome then
            (readLongLiteral text).map fun (characters, rest) =>
              (character :: characters, rest)
          else none

def dropFirstLineEnd (text : List Char) : List Char := (dropLineEnd text).getD text

def readString : Reader String
  | '"' :: '"' :: '"' :: text =>
      (readLongBasic (text.length + 1) (dropFirstLineEnd text)).map fun (characters, rest) =>
        (String.ofList characters, rest)
  | '\'' :: '\'' :: '\'' :: text =>
      (readLongLiteral (dropFirstLineEnd text)).map fun (characters, rest) =>
        (String.ofList characters, rest)
  | '"' :: text =>
      (readBasic (text.length + 1) text).map fun (characters, rest) =>
        (String.ofList characters, rest)
  | '\'' :: text =>
      (readLiteral text).map fun (characters, rest) => (String.ofList characters, rest)
  | _ => none

example : readString "\"\"\"\na\\\n  b\"\"\"\"!".toList = some ("ab\"", ['!']) ∧
    readString "'a\\n'".toList = some ("a\\n", []) ∧
    readString "\"\\q\"".toList = none := by decide +kernel

/-! ## Keys -/

def isKeyCharacter (character : Char) : Bool :=
  character.isAlphanum || character = '_' || character = '-'

def readKey : Reader String
  | '"' :: text =>
      (readBasic (text.length + 1) text).map fun (characters, rest) =>
        (String.ofList characters, rest)
  | '\'' :: text =>
      (readLiteral text).map fun (characters, rest) => (String.ofList characters, rest)
  | text =>
      match text.takeWhile isKeyCharacter with
      | [] => none
      | characters => some (String.ofList characters, text.dropWhile isKeyCharacter)

def readKeys : Nat → Reader (List String)
  | 0, _ => none
  | bound + 1, text => do
      let (key, text) ← readKey (skipBlanks text)
      match skipBlanks text with
      | '.' :: text => (readKeys bound text).map fun (keys, rest) => (key :: keys, rest)
      | text => some ([key], text)

/-! ## Values -/

def isWordCharacter (character : Char) : Bool :=
  character.isAlphanum || character = '_' || character = '-' || character = '+' ||
    character = '.' || character = ':'

def takeWord (text : List Char) : List Char × List Char :=
  (text.takeWhile isWordCharacter, text.dropWhile isWordCharacter)

/-- Reads a word. A single blank may stand between a date and a time. -/
def readScalar (text : List Char) : Option (Scalar × List Char) :=
  let (word, rest) := takeWord text
  match readDate word, rest with
  | some (_, []), ' ' :: digit :: more =>
      if digit.isDigit then
        let (time, rest) := takeWord (digit :: more)
        (readWord (word ++ ' ' :: time)).map fun value => (value, rest)
      else (readWord word).map fun value => (value, rest)
  | _, _ => (readWord word).map fun value => (value, rest)

/-- Items with commas between them, and possibly behind the last one, up to a
closing character. Blanks, comments and line ends may stand around each. -/
def readItems {α : Type} (item : Reader α) (close : Char) : Nat → Reader (List α)
  | 0, _ => none
  | bound + 1, text =>
      match skipAll text with
      | [] => none
      | character :: rest =>
          if character = close then some ([], rest)
          else
            match item (character :: rest) with
            | none => none
            | some (first, text) =>
                match skipAll text with
                | ',' :: text =>
                    (readItems item close bound text).map fun (others, rest) =>
                      (first :: others, rest)
                | character :: rest =>
                    if character = close then some ([first], rest) else none
                | [] => none

def readEntry (value : Reader Value) (text : List Char) :
    Option ((List String × Value) × List Char) := do
  let (keys, text) ← readKeys (text.length + 1) text
  let text ← dropWord ['='] text
  let (value, rest) ← value (skipBlanks text)
  some ((keys, value), rest)

def readValue : Nat → Reader Value
  | levels, text =>
      match text with
      | '[' :: text =>
          match levels with
          | 0 => none
          | levels + 1 =>
              (readItems (readValue levels) ']' (text.length + 1) text).map
                fun (elements, rest) => (.array elements, rest)
      | '{' :: text =>
          match levels with
          | 0 => none
          | levels + 1 => do
              let (entries, rest) ←
                readItems (readEntry (readValue levels)) '}' (text.length + 1) text
              let table ← Value.ofEntries entries
              some (table, rest)
      | '"' :: _ | '\'' :: _ =>
          (readString text).map fun (value, rest) => (.scalar (.string value), rest)
      | _ => (readScalar text).map fun (value, rest) => (.scalar value, rest)

def maximalDepth : Nat := 80

/-! ## Statements -/

def readStatement : Reader Statement
  | '[' :: '[' :: text => do
      let (keys, text) ← readKeys (text.length + 1) text
      let rest ← dropWord "]]".toList text
      some (.itemHeader keys, rest)
  | '[' :: text => do
      let (keys, text) ← readKeys (text.length + 1) text
      let rest ← dropWord "]".toList text
      some (.header keys, rest)
  | text => do
      let ((keys, value), rest) ← readEntry (readValue maximalDepth) text
      some (.entry keys value, rest)

def readStatements : Nat → List Char → Option (List Statement)
  | 0, _ => none
  | bound + 1, text =>
      match skipAll text with
      | [] => some []
      | text => do
          let (statement, text) ← readStatement text
          let text ← endLine text
          let statements ← readStatements bound text
          some (statement :: statements)

def parse? (text : List Char) : Option Value :=
  (readStatements (text.length + 1) text).bind Value.ofStatements

example : (parse? "[a]\nb.c = 1 # one\nb.d = [ 1,\n 2, ]\n".toList).isSome ∧
    (parse? "a = 1\na = 2".toList).isNone ∧ (parse? "a = 1 b = 2".toList).isNone ∧
    (parse? "a = \x7b b = 1 \x7d\na.c = 2".toList).isNone := by decide +kernel

end Relay.Toml
