namespace Relay.Text

/-! Digits of numbers in a base, and the numbers that they stand for. -/

def digit? (base : Nat) (character : Char) : Option Nat :=
  let value? :=
    if '0' ≤ character ∧ character ≤ '9' then some (character.toNat - '0'.toNat)
    else if 'a' ≤ character ∧ character ≤ 'f' then some (character.toNat - 'a'.toNat + 10)
    else if 'A' ≤ character ∧ character ≤ 'F' then some (character.toNat - 'A'.toNat + 10)
    else none
  value?.filter (· < base)

def hexDigit? (character : Char) : Option Nat := digit? 16 character

example : digit? 10 '7' = some 7 ∧ digit? 8 '8' = none ∧ hexDigit? 'F' = some 15 := by
  decide

def isDigitOf (base : Nat) (character : Char) : Bool := (digit? base character).isSome

def valueOf (base : Nat) (digits : List Char) : Nat :=
  digits.foldl (fun value digit => value * base + (digit? base digit).getD 0) 0

example : valueOf 16 "fF".toList = 255 := by decide

def padded (count value : Nat) : List Char :=
  let digits := Nat.toDigits 10 value
  List.replicate (count - digits.length) '0' ++ digits

example : padded 2 7 = "07".toList ∧ padded 2 123 = "123".toList := by decide

end Relay.Text
