import Relay.Config.Tree
import Relay.Text.Reader

namespace Relay.Config

/-! Names of places: a key, then keys behind points and indices in brackets. A
name that is not of this form is one key. -/

namespace Path

def isKeyCharacter (character : Char) : Bool :=
  character.isAlphanum || character = '_' || character = '-'

def readKey (text : List Char) : Option (String × List Char) :=
  match text.takeWhile isKeyCharacter with
  | [] => none
  | characters => some (String.ofList characters, text.dropWhile isKeyCharacter)

def skipBlanks (text : List Char) : List Char :=
  text.dropWhile fun character => character = ' ' || character = '\t'

def readIndex (text : List Char) : Option (Int × List Char) := do
  let (negative, text) :=
    match skipBlanks text with
    | '-' :: text => (true, text)
    | text => (false, text)
  let (digits, text) ← Text.readDigits text
  let size : Int := Text.valueOf 10 digits
  let index := if negative then -size else size
  let rest ← Text.dropWord [']'] (skipBlanks text)
  if -0x8000000000000000 ≤ index ∧ index < 0x8000000000000000 then some (index, rest) else none

/-- The steps after the first key. Each takes at least one character, so that
the length of the text bounds their number. -/
def readSteps : Nat → List Char → Option (List Tree.Step)
  | _, [] => some []
  | bound + 1, '.' :: text => do
      let (key, text) ← readKey text
      let steps ← readSteps bound text
      some (.key key :: steps)
  | bound + 1, '[' :: text => do
      let (index, text) ← readIndex text
      let steps ← readSteps bound text
      some (.index index :: steps)
  | _, _ => none

def parse? (name : String) : Option (List Tree.Step) := do
  let (key, text) ← readKey name.toList
  let steps ← readSteps text.length text
  some (.key key :: steps)

def ofName (name : String) : List Tree.Step := (parse? name).getD [.key name]

example : ofName "a.b-c[-1]" = [.key "a", .key "b-c", .index (-1)] ∧
    ofName "a..b" = [.key "a..b"] ∧ ofName "" = [.key ""] := by decide +kernel

end Path

end Relay.Config
