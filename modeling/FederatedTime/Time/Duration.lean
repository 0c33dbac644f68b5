/-!
# Durations

A duration counts nanoseconds of simulated or physical time; it has no upper end. `Duration.text`
writes it in the largest unit that it fills.
-/

namespace FederatedTime

/-- A length of time in nanoseconds. -/
abbrev Duration := Nat

namespace Duration

def ofMicros (n : Nat) : Duration := n * 1000

def ofMillis (n : Nat) : Duration := n * 1000000

def ofSecs (n : Nat) : Duration := n * 1000000000

/-- The whole milliseconds of a duration. -/
def millis (d : Duration) : Nat := d / 1000000

/-- The whole seconds of a duration. -/
def secs (d : Duration) : Nat := d / 1000000000

/-- What a duration has beyond its whole seconds. -/
def subsecNanos (d : Duration) : Nat := d % 1000000000

/-- The decimal digits of `part`, at least `width` of them, without the zeros at the end. -/
def fractionDigits (width part : Nat) : List Char :=
  let digits := (Nat.toDigits 10 part)
  let padded := List.replicate (width - digits.length) '0' ++ digits
  (padded.reverse.dropWhile (· == '0')).reverse

/-- The exact quotient of `d` by a unit of ten to the power of `width` nanoseconds, in decimal. -/
def inUnit (d : Duration) (width : Nat) (unit : String) : String :=
  let size := Nat.pow 10 width
  let whole := toString (d / size)
  match fractionDigits width (d % size) with
  | [] => whole ++ unit
  | digits => whole ++ "." ++ String.ofList digits ++ unit

/-- A duration in the largest of seconds, milliseconds, microseconds and nanoseconds that it
fills, with as many decimals as it needs. -/
def text (d : Duration) : String :=
  if 1000000000 ≤ d then d.inUnit 9 "s"
  else if 1000000 ≤ d then d.inUnit 6 "ms"
  else if 1000 ≤ d then d.inUnit 3 "µs"
  else d.inUnit 0 "ns"

end Duration

end FederatedTime
