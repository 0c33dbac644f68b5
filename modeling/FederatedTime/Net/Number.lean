import FederatedTime.Text.Reader

/-!
# Numbers in addresses

The numbers of which textual addresses are made.
-/

namespace FederatedTime.Net

open Text (Reader leadingDigits decimalDigit? hexDigit?)

/-- Read a decimal number that is at most `limit`, in any number of digits. -/
def decimal (limit : Nat) : Reader Nat := fun cs =>
  let digits := leadingDigits decimalDigit? cs
  let n := Text.value 10 decimalDigit? digits
  if digits.isEmpty ∨ limit < n then none else some (n, cs.drop digits.length)

/-- Read a decimal number below 256 of at most three digits, the first of which is zero only if it
stands alone. -/
def octet : Reader UInt8 := fun cs =>
  let digits := leadingDigits decimalDigit? cs
  let n := Text.value 10 decimalDigit? digits
  if digits.isEmpty ∨ 3 < digits.length ∨ (digits.head? = some '0' ∧ 1 < digits.length) ∨ 255 < n
  then none
  else some (UInt8.ofNat n, cs.drop digits.length)

/-- Read a hexadecimal number of at most four digits. -/
def group : Reader UInt16 := fun cs =>
  let digits := leadingDigits hexDigit? cs
  if digits.isEmpty ∨ 4 < digits.length then none
  else some (UInt16.ofNat (Text.value 16 hexDigit? digits), cs.drop digits.length)

end FederatedTime.Net
