/-!
# Nanosecond counts

Timestamps and delays are signed 64-bit counts of nanoseconds. Sums are formed in `Int` and brought
back in one of three ways: `ofInt?` refuses a sum that does not fit, `saturate` takes the nearest
count that does, and where nobody has decided, `Overflow.fit` leaves it to how the program is built.
-/

namespace FederatedTime.Nanoseconds

/-- The least count, as an integer. -/
def least : Int := -9223372036854775808

/-- The greatest count, as an integer. -/
def greatest : Int := 9223372036854775807

/-- The count `i`, if it fits. -/
def ofInt? (i : Int) : Option Int64 :=
  if least ≤ i ∧ i ≤ greatest then some (Int64.ofInt i) else none

/-- The count nearest to `i`. -/
def saturate (i : Int) : Int64 :=
  Int64.ofInt (max least (min i greatest))

/-- What a program does about a result that does not fit and that it has not provided for. -/
inductive Overflow where
  /-- It goes on with the rest modulo 2 to the power of 64. -/
  | wraps
  /-- It stops. -/
  | stops
deriving DecidableEq

namespace Overflow

/-- The count `i`, or what the program goes on with. -/
def fit : Overflow → Int → Option Int64
  | wraps, i => some (Int64.ofInt i)
  | stops, i => ofInt? i

def add (o : Overflow) (a b : Int64) : Option Int64 := o.fit (a.toInt + b.toInt)

def sub (o : Overflow) (a b : Int64) : Option Int64 := o.fit (a.toInt - b.toInt)

/-- The quotient, rounded towards zero. -/
def div (o : Overflow) (a : Int64) (b : Int) : Option Int64 := o.fit (a.toInt.tdiv b)

def abs (o : Overflow) (a : Int64) : Option Int64 := o.fit a.toInt.natAbs

end Overflow

/-- The decimal text of a count. -/
def text (n : Int64) : String := toString n.toInt

end FederatedTime.Nanoseconds
