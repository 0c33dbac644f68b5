/-!
# Probabilities

A probability in parts of two to the 64th, so that a 64-bit number below its weight is drawn with
that probability. Floating-point numbers between zero and one are rounded down to such a part.
-/

namespace FederatedTime

/-- A probability. -/
structure Probability where
  weight : Nat
  weight_le : weight ≤ UInt64.size := by decide
deriving DecidableEq

namespace Probability

def impossible : Probability := ⟨0, by decide⟩

def certain : Probability := ⟨UInt64.size, by decide⟩

instance : Inhabited Probability := ⟨impossible⟩

def isCertain (p : Probability) : Bool := p.weight = UInt64.size

/-- The number of parts, rounded down, in a number with the given exponent and fraction bits. A
double is its significand, of which the fraction bits are all but the highest bit, scaled by a power
of two; the scale is one part where the exponent bits are 1011. -/
def weightOfBits (exponent fraction : Nat) : Nat :=
  let significand := if exponent = 0 then fraction else 1 <<< 52 + fraction
  let exponent := max exponent 1
  if 1011 ≤ exponent then significand <<< (exponent - 1011)
  else significand >>> (1011 - exponent)

/-- The probability that the bits of a floating-point number stand for, if they stand for one. -/
def ofBits? (bits : UInt64) : Option Probability :=
  let isNegative := bits >>> 63 = 1
  let exponent := (bits >>> 52 &&& 0x7ff).toNat
  let fraction := (bits &&& 0xfffffffffffff).toNat
  if exponent = 0 ∧ fraction = 0 then some impossible
  else if isNegative ∨ 1024 ≤ exponent then none
  else
    let weight := weightOfBits exponent fraction
    if h : weight ≤ UInt64.size then some ⟨weight, h⟩ else none

/-- The probability `x`, if `x` lies between zero and one. -/
def ofFloat? (x : Float) : Option Probability := ofBits? x.toBits

end Probability

end FederatedTime
