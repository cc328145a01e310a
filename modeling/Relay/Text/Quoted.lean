import Relay.Text.Shape

namespace Relay.Text

/-! Texts in double quotes. Quotes and backslashes follow a backslash, and
characters without a shape are written by name or by number, so that every
character of the text can be seen. -/

def quotedCharacter (character : Char) : List Char :=
  match character with
  | '\x00' => "\\0".toList
  | '\t' => "\\t".toList
  | '\n' => "\\n".toList
  | '\x0d' => "\\r".toList
  | '"' => "\\\"".toList
  | '\\' => "\\\\".toList
  | _ =>
      if isShapeless character then
        "\\u\x7b".toList ++ Nat.toDigits 16 character.toNat ++ ['}']
      else [character]

def quoted (text : List Char) : List Char :=
  '"' :: text.flatMap quotedCharacter ++ ['"']

def quote (text : String) : String := String.ofList (quoted text.toList)

example : quote "é\t\"\u200b" = "\"é\\t\\\"\\u\x7b200b\x7d\"" := by decide +kernel

end Relay.Text
