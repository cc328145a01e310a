import Relay.Text.Reader

namespace Relay

/-! Addresses of peers: an internet address of either version and a port, their
texts and how the texts are read. -/

inductive Address where
  | v4 (first second third fourth : UInt8) (port : UInt16)
  | v6 (groups : List UInt16) (eight : groups.length = 8) (scope : UInt32)
      (port : UInt16)
  deriving DecidableEq, Repr

namespace Address

/-! ## Writing -/

def decimal (value : Nat) : List Char := Nat.toDigits 10 value

def octetsText (octets : List UInt8) : List Char :=
  ['.'].intercalate (octets.map fun octet => decimal octet.toNat)

def groupsText (groups : List UInt16) : List Char :=
  [':'].intercalate (groups.map fun group => Nat.toDigits 16 group.toNat)

def leadingZeros (groups : List UInt16) : Nat := (groups.takeWhile (· = 0)).length

/-- The first of the longest runs of zeros: how many groups stand before it, and
its length. -/
def longestZeros : List UInt16 → Nat × Nat
  | [] => (0, 0)
  | group :: rest =>
      let here := leadingZeros (group :: rest)
      let (start, later) := longestZeros rest
      if later ≤ here then (0, here) else (start + 1, later)

example : longestZeros [1, 0, 0, 2, 0, 0] = (1, 2) := by decide

/-- An address of version 4 inside one of version 6 keeps its points. Otherwise
two colons stand for the first of the longest runs of two or more zeros. -/
def hostText : List UInt16 → List Char
  | [0, 0, 0, 0, 0, 0xffff, high, low] =>
      "::ffff:".toList ++ octetsText [(high >>> 8).toUInt8, high.toUInt8,
        (low >>> 8).toUInt8, low.toUInt8]
  | groups =>
      let (start, length) := longestZeros groups
      if 1 < length then
        groupsText (groups.take start) ++ "::".toList ++
          groupsText (groups.drop (start + length))
      else groupsText groups

def text : Address → List Char
  | .v4 first second third fourth port =>
      octetsText [first, second, third, fourth] ++ ':' :: decimal port.toNat
  | .v6 groups _ scope port =>
      let scopeText := if scope = 0 then [] else '%' :: decimal scope.toNat
      '[' :: hostText groups ++ scopeText ++ ']' :: ':' :: decimal port.toNat

def render (address : Address) : String := String.ofList address.text

/-! ## Reading -/

def readChar (expected : Char) : List Char → Option (List Char)
  | [] => none
  | character :: rest => if character = expected then some rest else none

def readDigits (base : Nat) : List Char → Nat → Nat → Nat × Nat × List Char
  | [], value, count => (value, count, [])
  | character :: rest, value, count =>
      match Text.digit? base character with
      | some digit => readDigits base rest (value * base + digit) (count + 1)
      | none => (value, count, character :: rest)

def readNumber (base bound : Nat) (text : List Char) : Option (Nat × List Char) :=
  let (value, count, rest) := readDigits base text 0 0
  if count = 0 ∨ bound ≤ value then none else some (value, rest)

def readOctet (text : List Char) : Option (UInt8 × List Char) :=
  let (value, count, rest) := readDigits 10 text 0 0
  if count = 0 ∨ 3 < count ∨ 256 ≤ value ∨ (1 < count ∧ text.head? = some '0') then none
  else some (.ofNat value, rest)

def readOctets (text : List Char) :
    Option ((UInt8 × UInt8 × UInt8 × UInt8) × List Char) := do
  let (first, text) ← readOctet text
  let (second, text) ← readOctet (← readChar '.' text)
  let (third, text) ← readOctet (← readChar '.' text)
  let (fourth, text) ← readOctet (← readChar '.' text)
  some ((first, second, third, fourth), text)

def readGroup (text : List Char) : Option (UInt16 × List Char) :=
  let (value, count, rest) := readDigits 16 text 0 0
  if count = 0 ∨ 4 < count then none else some (.ofNat value, rest)

def readSeparator (isFirst : Bool) (text : List Char) : Option (List Char) :=
  if isFirst then some text else readChar ':' text

def pair (high low : UInt8) : UInt16 := high.toUInt16 <<< 8 ||| low.toUInt16

/-- As many groups as there are, up to a limit, and whether the last two of them
were written as an address of version 4. -/
def readGroups (isFirst : Bool) : Nat → List Char → List UInt16 × Bool × List Char
  | 0, text => ([], false, text)
  | limit + 1, text =>
      let embedded :=
        if limit = 0 then none else readSeparator isFirst text >>= readOctets
      match embedded with
      | some ((first, second, third, fourth), rest) =>
          ([pair first second, pair third fourth], true, rest)
      | none =>
          match readSeparator isFirst text >>= readGroup with
          | none => ([], false, text)
          | some (group, rest) =>
              let (groups, isEmbedded, rest) := readGroups false limit rest
              (group :: groups, isEmbedded, rest)

/-- Eight groups, or fewer with two colons that stand for at least one zero. -/
def readHost (text : List Char) : Option (List UInt16 × List Char) := do
  let (head, isEmbedded, text) := readGroups true 8 text
  if head.length = 8 then some (head, text)
  else if isEmbedded then none
  else
    let text ← readChar ':' (← readChar ':' text)
    let (tail, _, text) := readGroups true (7 - head.length) text
    some (head ++ List.replicate (8 - head.length - tail.length) 0 ++ tail, text)

def readPort (text : List Char) : Option (UInt16 × List Char) := do
  let (port, text) ← readNumber 10 UInt16.size (← readChar ':' text)
  some (.ofNat port, text)

def readScope (text : List Char) : UInt32 × List Char :=
  match readChar '%' text >>= readNumber 10 UInt32.size with
  | some (scope, rest) => (.ofNat scope, rest)
  | none => (0, text)

def readV4 (text : List Char) : Option (Address × List Char) := do
  let ((first, second, third, fourth), text) ← readOctets text
  let (port, text) ← readPort text
  some (.v4 first second third fourth port, text)

def readV6 (text : List Char) : Option (Address × List Char) := do
  let (groups, text) ← readHost (← readChar '[' text)
  let (scope, text) := readScope text
  let (port, text) ← readPort (← readChar ']' text)
  if eight : groups.length = 8 then some (.v6 groups eight scope port, text) else none

def parse? (text : String) : Option Address :=
  match (readV4 text.toList).orElse fun _ => readV6 text.toList with
  | some (address, []) => some address
  | _ => none

example : (parse? "[2001:db8:0:0:1:0:0:1]:443").map render =
    some "[2001:db8::1:0:0:1]:443" := by decide +kernel

example : parse? "127.0.0.1:080" = some (.v4 127 0 0 1 80) ∧
    parse? "127.0.0.01:80" = none := by decide +kernel

end Address

end Relay
