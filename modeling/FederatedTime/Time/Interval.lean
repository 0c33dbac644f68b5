import FederatedTime.Time.Nanoseconds

/-!
# Intervals

An interval is a span of logical or physical time. A federation accepts none below zero as the
delay of a connection; the type itself is signed, so that intervals add to timestamps directly.
-/

namespace FederatedTime

/-- A span of time in nanoseconds. -/
structure Interval where
  nanos : Int64
deriving DecidableEq, Inhabited

namespace Interval

/-- The empty span. -/
def zero : Interval := ⟨0⟩

def ofNanos (n : Int64) : Interval := ⟨n⟩

def ofMicros (n : Int64) : Interval := ⟨n * 1000⟩

def ofMillis (n : Int64) : Interval := ⟨n * 1000000⟩

def ofSecs (n : Int64) : Interval := ⟨n * 1000000000⟩

def isZero (d : Interval) : Bool := d.nanos == 0

def isNegative (d : Interval) : Bool := d.nanos < 0

/-- The shorter of two spans. -/
def min (a b : Interval) : Interval := if a.nanos ≤ b.nanos then a else b

/-- The span in nanoseconds, with its unit. -/
def text (d : Interval) : String := Nanoseconds.text d.nanos ++ "ns"

end Interval

end FederatedTime
