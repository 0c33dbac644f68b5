import FederatedTime.Text.Reader
import FederatedTime.Toml.Value

/-!
# Numbers

Integers are decimal with an optional sign, or hexadecimal, octal or binary with a mark in front.
Digits may be grouped by single underscores, and a decimal integer of several digits does not start
with a zero. An integer fits 64 bits. A fraction, an exponent, or a word for infinity or for no
number at all makes a float.
-/

namespace FederatedTime.Toml

open Text (Reader)

/-- Read digits, in groups with single underscores between them. Gives the digits. -/
def groupedDigits (digit? : Char → Option Nat) : Reader (List Char)
  | [] => none
  | [c] => if (digit? c).isSome then some ([c], []) else none
  | c :: d :: rest =>
    if (digit? c).isSome then
      if d = '_' then (groupedDigits digit? rest).map fun (ds, rest) => (c :: ds, rest)
      else if (digit? d).isSome then
        (groupedDigits digit? (d :: rest)).map fun (ds, rest) => (c :: ds, rest)
      else some ([c], d :: rest)
    else none

/-- Read a sign, if there is one; tells whether it is a minus. -/
def sign : List Char → Bool × List Char
  | '-' :: rest => (true, rest)
  | '+' :: rest => (false, rest)
  | cs => (false, cs)

/-- Read the decimal digits of an integer: a zero that stands alone, or digits that start with
another one. -/
def wholeDigits : Reader (List Char)
  | '0' :: rest => some (['0'], rest)
  | cs => groupedDigits Text.decimalDigit? cs

/-- An integer, if it fits 64 bits. -/
def bounded (i : Int) : Option Int :=
  if Int64.minValue.toInt ≤ i ∧ i ≤ Int64.maxValue.toInt then some i else none

/-- Read the digits of an integer in a base other than ten. -/
def basedInteger (base : Nat) (digit? : Char → Option Nat) : Reader Int := fun cs => do
  let (ds, rest) ← groupedDigits digit? cs
  let i ← bounded (Text.value base digit? ds)
  pure (i, rest)

/-- Read an integer. -/
def integer : Reader Int
  | '0' :: 'x' :: rest => basedInteger 16 Text.hexDigit? rest
  | '0' :: 'o' :: rest => basedInteger 8 Text.octalDigit? rest
  | '0' :: 'b' :: rest => basedInteger 2 Text.binaryDigit? rest
  | cs => do
    let (isNegative, cs) := sign cs
    let (ds, rest) ← wholeDigits cs
    let n : Int := Text.value 10 Text.decimalDigit? ds
    let i ← bounded (if isNegative then -n else n)
    pure (i, rest)

/-! ## Floats -/

/-- Read an exponent, if there is one. -/
def exponent? : Reader (Option Int)
  | c :: rest =>
    if c = 'e' ∨ c = 'E' then do
      let (isNegative, rest) := sign rest
      let (ds, rest) ← groupedDigits Text.decimalDigit? rest
      let n : Int := Text.value 10 Text.decimalDigit? ds
      pure (some (if isNegative then -n else n), rest)
    else some (none, c :: rest)
  | [] => some (none, [])

/-- Read a fraction, if there is one. -/
def fraction? : Reader (Option (List Char))
  | '.' :: rest => (groupedDigits Text.decimalDigit? rest).map fun (ds, rest) => (some ds, rest)
  | cs => some (none, cs)

/-- Whether `n` times ten to the power of `e` is too great for the range of doubles, which ends half
a unit above the greatest of them. -/
def exceedsDouble (n : Nat) (e : Int) : Bool :=
  let size : Int := (Nat.toDigits 10 n).length + e
  let limit := 1 <<< 1024 - 1 <<< 970
  if n = 0 ∨ size < 300 then false
  else if 320 < size then true
  else if 0 ≤ e then limit ≤ n * Nat.pow 10 e.toNat
  else limit * Nat.pow 10 (-e).toNat ≤ n

/-- Read a float that has a fraction or an exponent. One above the range of doubles is none. -/
def decimalFloat : Reader Unit := fun cs => do
  let (isNegative, cs) := sign cs
  let (ds, cs) ← wholeDigits cs
  let (fraction, cs) ← fraction? cs
  let (exponent, cs) ← exponent? cs
  if fraction.isNone ∧ exponent.isNone then none
  else
    let fraction := fraction.getD []
    let n := Text.value 10 Text.decimalDigit? (ds ++ fraction)
    if !isNegative ∧ exceedsDouble n (exponent.getD 0 - fraction.length) then none
    else pure ((), cs)

/-- Read infinity, or what is no number. -/
def namedFloat : Reader Unit := fun cs =>
  let (_, cs) := sign cs
  Text.word "inf".toList cs <|> Text.word "nan".toList cs

/-- Read a float. Gives its text. -/
def float : Reader String := fun cs => do
  let (_, rest) ← decimalFloat cs <|> namedFloat cs
  pure (String.ofList (cs.take (cs.length - rest.length)), rest)

end FederatedTime.Toml
