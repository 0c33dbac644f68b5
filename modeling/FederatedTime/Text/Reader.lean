/-!
# Readers

A reader takes something from the front of a text and gives it with the text behind it, or gives
nothing. The readers here know single characters and digits.
-/

namespace FederatedTime.Text

/-- A reader of the front of a text. -/
abbrev Reader (α : Type) := List Char → Option (α × List Char)

/-- Read the character `c`. -/
def mark (c : Char) : Reader Unit
  | d :: rest => if d = c then some ((), rest) else none
  | [] => none

/-- Read the characters of `word`. -/
def word : (word : List Char) → Reader Unit
  | [], cs => some ((), cs)
  | c :: more, cs => do
    let (_, cs) ← mark c cs
    word more cs

/-- What `read` makes of a whole text. -/
def whole {α : Type} (read : Reader α) (cs : List Char) : Option α :=
  match read cs with
  | some (a, []) => some a
  | _ => none

/-! ## Digits -/

/-- The value of a decimal digit. -/
def decimalDigit? (c : Char) : Option Nat :=
  if '0' ≤ c ∧ c ≤ '9' then some (c.toNat - 48) else none

/-- The value of an octal digit. -/
def octalDigit? (c : Char) : Option Nat :=
  if '0' ≤ c ∧ c ≤ '7' then some (c.toNat - 48) else none

/-- The value of a binary digit. -/
def binaryDigit? (c : Char) : Option Nat :=
  if '0' ≤ c ∧ c ≤ '1' then some (c.toNat - 48) else none

/-- The value of a hexadecimal digit of either case. -/
def hexDigit? (c : Char) : Option Nat :=
  if '0' ≤ c ∧ c ≤ '9' then some (c.toNat - 48)
  else if 'a' ≤ c ∧ c ≤ 'f' then some (c.toNat - 87)
  else if 'A' ≤ c ∧ c ≤ 'F' then some (c.toNat - 55)
  else none

/-- The digits at the front of a text. -/
def leadingDigits (digit? : Char → Option Nat) (cs : List Char) : List Char :=
  cs.takeWhile fun c => (digit? c).isSome

/-- The value of digits in the given base. -/
def value (base : Nat) (digit? : Char → Option Nat) (cs : List Char) : Nat :=
  cs.foldl (fun n c => n * base + (digit? c).getD 0) 0

end FederatedTime.Text
