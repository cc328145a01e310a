namespace Relay.Utf8

/-! Reading UTF-8. Octets that are no UTF-8 are reported with the place and the
kind of the first defect, or else replaced: a *maximal ill-formed part* is the
longest run of octets that starts a well-formed sequence and cannot be
continued, or a single octet that starts none. -/

def isBetween (low high octet : UInt8) : Bool := low ≤ octet && octet ≤ high

def isContinuation (octet : UInt8) : Bool := isBetween 0x80 0xbf octet

/-- The second octets that may follow a first one. They rule out longer forms of
shorter sequences, surrogates, and numbers that are no characters. -/
def isSecond (first second : UInt8) : Bool :=
  if first = 0xe0 then isBetween 0xa0 0xbf second
  else if first = 0xed then isBetween 0x80 0x9f second
  else if first = 0xf0 then isBetween 0x90 0xbf second
  else if first = 0xf4 then isBetween 0x80 0x8f second
  else isContinuation second

/-- How many octets follow a first one, if a character starts with it. -/
def further? (first : UInt8) : Option Nat :=
  if first < 0x80 then some 0
  else if isBetween 0xc2 0xdf first then some 1
  else if isBetween 0xe0 0xef first then some 2
  else if isBetween 0xf0 0xf4 first then some 3
  else none

def tests (first : UInt8) : Nat → List (UInt8 → Bool)
  | 0 => []
  | further + 1 => isSecond first :: List.replicate further isContinuation

def mark : Nat → Nat
  | 0 => 0
  | 1 => 0xc0
  | 2 => 0xe0
  | _ => 0xf0

def bits (octet : UInt8) : Nat := octet.toNat - 0x80

/-- What stands at the front of some octets. `further` counts the octets that
belong to it after the first one. -/
inductive Front where
  | character (value : Char) (further : Nat)
  | illFormed (further : Nat)
  | truncated
  deriving DecidableEq, Repr

/-- Takes one octet for every test. The number is what the octets in front stand for. -/
def frontFrom (number further : Nat) : List (UInt8 → Bool) → List UInt8 → Front
  | [], _ => .character (Char.ofNat number) further
  | _ :: _, [] => .truncated
  | test :: tests, octet :: rest =>
      if test octet then frontFrom (number * 0x40 + bits octet) (further + 1) tests rest
      else .illFormed further

def front (first : UInt8) (rest : List UInt8) : Front :=
  match further? first with
  | some further => frontFrom (first.toNat - mark further) 0 (tests first further) rest
  | none => .illFormed 0

example : front 0xe2 [0x82, 0xac] = .character '€' 2 ∧
    front 0xe2 [0x82, 0x28] = .illFormed 1 ∧ front 0xe2 [0x82] = .truncated := by decide

/-- The first defect of some octets: the number of octets before it, and the
length of the ill-formed part, or none if the octets end inside a sequence. -/
structure Defect where
  index : Nat
  length : Option Nat
  deriving DecidableEq, Repr

namespace Defect

def text (defect : Defect) : String :=
  match defect.length with
  | some length =>
      "invalid utf-8 sequence of " ++ toString length ++ " bytes from index " ++
        toString defect.index
  | none => "incomplete utf-8 byte sequence from index " ++ toString defect.index

end Defect

def decodeFrom (index : Nat) : List UInt8 → Except Defect (List Char)
  | [] => .ok []
  | first :: rest =>
      match front first rest with
      | .character value further =>
          (decodeFrom (index + further + 1) (rest.drop further)).map (value :: ·)
      | .illFormed further => .error ⟨index, some (further + 1)⟩
      | .truncated => .error ⟨index, none⟩
termination_by octets => octets.length
decreasing_by simp only [List.length_drop, List.length_cons]; omega

def decode (octets : List UInt8) : Except Defect (List Char) := decodeFrom 0 octets

def replacement : Char := '\ufffd'

def decodeLossy : List UInt8 → List Char
  | [] => []
  | first :: rest =>
      match front first rest with
      | .character value further => value :: decodeLossy (rest.drop further)
      | .illFormed further => replacement :: decodeLossy (rest.drop further)
      | .truncated => [replacement]
termination_by octets => octets.length
decreasing_by all_goals simp only [List.length_drop, List.length_cons]; omega

example : decode [0x61, 0xff] = .error ⟨1, some 1⟩ ∧ decode [0x61, 0xc3] = .error ⟨1, none⟩ ∧
    decodeLossy [0x61, 0xe2, 0x82, 0x28] = ['a', replacement, '('] := by
  simp [decode, decodeFrom, decodeLossy, front, further?, tests, mark, frontFrom, isBetween,
    isSecond, isContinuation, Except.map]

end Relay.Utf8
