import Relay.Text.Digits

namespace Relay

/-! Readers. A reader takes what it understands from the front of a text and
returns it with the text that is left; it returns nothing if the text does not
start with what it looks for. -/

abbrev Reader (α : Type) := List Char → Option (α × List Char)

namespace Text

def leadingDigits (text : List Char) : List Char := text.takeWhile Char.isDigit

def afterDigits (text : List Char) : List Char := text.dropWhile Char.isDigit

def readDigits (text : List Char) : Option (List Char × List Char) :=
  match leadingDigits text with
  | [] => none
  | digits => some (digits, afterDigits text)

def readSign : List Char → Bool × List Char
  | '+' :: rest => (false, rest)
  | '-' :: rest => (true, rest)
  | text => (false, text)

def dropWord (word text : List Char) : Option (List Char) :=
  if word.isPrefixOf text then some (text.drop word.length) else none

/-- The parts of a text between separators. There is one part more than there
are separators. -/
def parts (separator : Char) : List Char → List (List Char)
  | [] => [[]]
  | character :: rest =>
      if character = separator then [] :: parts separator rest
      else
        match parts separator rest with
        | [] => [[character]]
        | first :: others => (character :: first) :: others

example : parts '.' "a..b".toList = [['a'], [], ['b']] := by decide

def lower (text : List Char) : List Char := text.map Char.toLower

end Text

end Relay
