import Relay.Json

namespace Relay

/-! The compact text of JSON values, without any blanks. Members are written in
the order in which they stand. -/

namespace Json

def shortEscape? : Char → Option Char
  | '"' => some '"'
  | '\\' => some '\\'
  | '\x08' => some 'b'
  | '\x0c' => some 'f'
  | '\n' => some 'n'
  | '\x0d' => some 'r'
  | '\t' => some 't'
  | _ => none

/-- A character inside a string. Only quotes, backslashes and control characters
below the blank are escaped. -/
def characterText (character : Char) : List Char :=
  match shortEscape? character with
  | some letter => ['\\', letter]
  | none =>
      if character.toNat < 0x20 then
        ['\\', 'u', '0', '0', Nat.digitChar (character.toNat / 16),
          Nat.digitChar (character.toNat % 16)]
      else [character]

example : characterText '\x1f' = ['\\', 'u', '0', '0', '1', 'f'] := by decide

def stringText (value : String) : List Char :=
  '"' :: value.toList.flatMap characterText ++ ['"']

end Json

open Json

mutual
def Json.text : Json → List Char
  | .null => "null".toList
  | .boolean true => "true".toList
  | .boolean false => "false".toList
  | .number value => value.text
  | .string value => stringText value
  | .array elements => '[' :: elements.text ++ [']']
  | .object members => '{' :: members.text ++ ['}']

def Elements.text : Elements → List Char
  | .nil => []
  | .cons head .nil => head.text
  | .cons head (.cons next tail) =>
      head.text ++ ',' :: (Elements.cons next tail).text

def Members.text : Members → List Char
  | .nil => []
  | .cons key value .nil => stringText key ++ ':' :: value.text
  | .cons key value (.cons next other rest) =>
      stringText key ++ ':' :: value.text ++ ',' :: (Members.cons next other rest).text
end

namespace Json

def render (value : Json) : String := String.ofList value.text

example : (Json.object (.ofList [("a", .array (.ofList [.null, .string "\""]))])).render
    = "\x7b\"a\":[null,\"\\\"\"]\x7d" := by decide

end Json

end Relay
