import FederatedTime.Text.Reader

/-!
# Dates and times

A date, a time of day, or both, and with both perhaps the distance from universal time. Only what
the calendar and the clock have is a date or a time; the last minute of a day may have a leap
second.
-/

namespace FederatedTime.Toml

open Text (Reader)

/-- Read a number of exactly `width` decimal digits between `low` and `high`. -/
def fixedNumber (width low high : Nat) : Reader Nat := fun cs =>
  let digits := cs.take width
  let n := Text.value 10 Text.decimalDigit? digits
  if digits.length = width ∧ digits.all (fun c => (Text.decimalDigit? c).isSome) ∧ low ≤ n ∧
      n ≤ high then
    some (n, cs.drop width)
  else none

def isLeapYear (year : Nat) : Bool := year % 4 = 0 && (year % 100 ≠ 0 || year % 400 = 0)

/-- The number of days in a month. -/
def daysInMonth (year month : Nat) : Nat :=
  if month = 2 then if isLeapYear year then 29 else 28
  else if month = 4 ∨ month = 6 ∨ month = 9 ∨ month = 11 then 30
  else 31

def date : Reader Unit := fun cs => do
  let (year, cs) ← fixedNumber 4 0 9999 cs
  let (_, cs) ← Text.mark '-' cs
  let (month, cs) ← fixedNumber 2 1 12 cs
  let (_, cs) ← Text.mark '-' cs
  let (_, cs) ← fixedNumber 2 1 (daysInMonth year month) cs
  pure ((), cs)

/-- Read hours and minutes. -/
def hourMinute : Reader Unit := fun cs => do
  let (_, cs) ← fixedNumber 2 0 23 cs
  let (_, cs) ← Text.mark ':' cs
  let (_, cs) ← fixedNumber 2 0 59 cs
  pure ((), cs)

/-- The text behind the fraction of a second in front, if there is one. -/
def skipFraction : List Char → List Char
  | '.' :: rest =>
    match Text.leadingDigits Text.decimalDigit? rest with
    | [] => '.' :: rest
    | digits => rest.drop digits.length
  | cs => cs

def time : Reader Unit := fun cs => do
  let (_, cs) ← hourMinute cs
  let (_, cs) ← Text.mark ':' cs
  let (_, cs) ← fixedNumber 2 0 60 cs
  pure ((), skipFraction cs)

/-- The text behind the distance from universal time in front, if there is one. -/
def skipOffset : List Char → List Char
  | 'Z' :: rest => rest
  | 'z' :: rest => rest
  | '+' :: rest => ((hourMinute rest).map (·.2)).getD ('+' :: rest)
  | '-' :: rest => ((hourMinute rest).map (·.2)).getD ('-' :: rest)
  | cs => cs

/-- The text behind the time of day that follows a date, if one does. -/
def skipTime (cs : List Char) : List Char :=
  match cs with
  | c :: rest =>
    if c = 'T' ∨ c = 't' ∨ c = ' ' then
      match time rest with
      | some (_, rest) => skipOffset rest
      | none => cs
    else cs
  | [] => []

/-- Read a date, a time, or both. Gives its text. -/
def datetime : Reader String := fun cs => do
  let rest ← ((date cs).map fun (_, rest) => skipTime rest) <|> ((time cs).map (·.2))
  pure (String.ofList (cs.take (cs.length - rest.length)), rest)

end FederatedTime.Toml
