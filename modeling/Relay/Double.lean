import Relay.Double.Fraction

namespace Relay

/-! Finite numbers of the binary format with 64 bits. A number is its sign and
its *rank*: the place of its absolute value among all such values in increasing
order, zero having rank 0. Two ranks that follow each other are neighbours, and
equal numbers other than the two zeros have equal representations. -/

namespace Double

def rankStep : Nat := 0x10000000000000

def rankBound : Nat := 2047 * rankStep

/-- The integer that is multiplied by a power of two to give the value at a
rank. The first `rankStep` ranks lack the leading bit of the others. -/
def significand (rank : Nat) : Nat :=
  if rank < rankStep then rank else rankStep + rank % rankStep

def exponent (rank : Nat) : Int :=
  max 1 (rank / rankStep : Nat) - 1075

def valueAt (rank : Nat) : Fraction :=
  (Fraction.ofNat (significand rank)).scale 2 (exponent rank)

/-- The rank of the value nearest to a fraction, the even rank if two are
equally near. The unit in the last place is `2 ^ unit`; a significand that
rounds up to the next power of two carries into the next exponent by itself. -/
def nearestRank (value : Fraction) : Nat :=
  if value.numerator = 0 then 0
  else
    let unit := max (value.binaryExponent - 52) (-1074)
    (unit + 1074).toNat * rankStep + (value.scale 2 (-unit)).roundEven

example : nearestRank ⟨1, 1⟩ = 0x3ff0000000000000 := by decide +kernel

example : nearestRank ⟨1, 10⟩ = 0x3fb999999999999a := by decide +kernel

example : valueAt (nearestRank ⟨3, 4⟩) = ⟨0x18000000000000, 0x20000000000000⟩ := by
  decide +kernel

end Double

structure Double where
  negative : Bool
  rank : Nat
  finite : rank < Double.rankBound
  deriving DecidableEq, Repr

namespace Double

def zero : Double := ⟨false, 0, by decide⟩

def ofRank? (negative : Bool) (rank : Nat) : Option Double :=
  if finite : rank < rankBound then some ⟨negative, rank, finite⟩ else none

def magnitude (number : Double) : Fraction := valueAt number.rank

/-- The number nearest to `digits * 10 ^ exponent`, if it is in range. The two
early answers spare a power of ten that no result depends on. -/
def ofDecimal? (negative : Bool) (digits : Nat) (exponent : Int) : Option Double :=
  let point := (Nat.toDigits 10 digits).length + exponent
  if digits = 0 ∨ point < -400 then some ⟨negative, 0, by decide⟩
  else if 400 < point then none
  else ofRank? negative (nearestRank ((Fraction.ofNat digits).scale 10 exponent))

example : (ofDecimal? true 15 (-1)).map Double.rank = some 0x3ff8000000000000 := by
  decide +kernel

end Double

end Relay
