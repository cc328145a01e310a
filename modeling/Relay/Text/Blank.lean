namespace Relay.Text

/-! White space, and texts without it at their ends. -/

/-- The characters with the property `White_Space` of the Unicode standard. -/
def isBlank (character : Char) : Bool :=
  let code := character.toNat
  (0x9 ≤ code && code ≤ 0xd) || (0x2000 ≤ code && code ≤ 0x200a) ||
    [0x20, 0x85, 0xa0, 0x1680, 0x2028, 0x2029, 0x202f, 0x205f, 0x3000].contains code

def trim (text : List Char) : List Char :=
  ((text.dropWhile isBlank).reverse.dropWhile isBlank).reverse

example : trim "\t a b\u3000".toList = ['a', ' ', 'b'] := by decide +kernel

end Relay.Text
