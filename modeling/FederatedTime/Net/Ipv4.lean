import FederatedTime.Net.Number

/-!
# IPv4 addresses

Four octets, written in decimal with points between them.
-/

namespace FederatedTime

/-- An IPv4 address. -/
structure Ipv4 where
  a : UInt8
  b : UInt8
  c : UInt8
  d : UInt8
deriving DecidableEq, Inhabited

namespace Ipv4

/-- The address that stands for "no address". -/
def unspecified : Ipv4 := ⟨0, 0, 0, 0⟩

/-- The address of the own host. -/
def localhost : Ipv4 := ⟨127, 0, 0, 1⟩

/-- The decimal digits of an octet. -/
def octetChars (o : UInt8) : List Char := Nat.toDigits 10 o.toNat

/-- The characters of an address in dotted decimal. -/
def chars (ip : Ipv4) : List Char :=
  octetChars ip.a ++ '.' :: octetChars ip.b ++ '.' :: octetChars ip.c ++ '.' :: octetChars ip.d

def text (ip : Ipv4) : String := String.ofList ip.chars

/-- Read an address in dotted decimal. -/
def read : Text.Reader Ipv4 := fun cs => do
  let (a, cs) ← Net.octet cs
  let (_, cs) ← Text.mark '.' cs
  let (b, cs) ← Net.octet cs
  let (_, cs) ← Text.mark '.' cs
  let (c, cs) ← Net.octet cs
  let (_, cs) ← Text.mark '.' cs
  let (d, cs) ← Net.octet cs
  pure (⟨a, b, c, d⟩, cs)

/-- The address that a whole text spells. -/
def ofChars? (cs : List Char) : Option Ipv4 := Text.whole read cs

end Ipv4

end FederatedTime
