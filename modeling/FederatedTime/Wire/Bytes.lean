/-!
# Bytes on the wire

Numbers travel as big-endian bytes. `bigEndian` and `ofBigEndian` are inverse to each other for
numbers that fit, and a reader takes a number of known width from the front of a byte string.
-/

namespace FederatedTime.Wire

/-- A string of bytes. -/
abbrev Bytes := List UInt8

/-- The last `width` base-256 digits of `n`, the most significant first. -/
def bigEndian : (width : Nat) → (n : Nat) → Bytes
  | 0, _ => []
  | width + 1, n => bigEndian width (n / 256) ++ [UInt8.ofNat n]

/-- The number whose base-256 digits are the given bytes. -/
def ofBigEndian (bytes : Bytes) : Nat := bytes.foldl (fun n b => n * 256 + b.toNat) 0

@[simp] theorem length_bigEndian (width n : Nat) : (bigEndian width n).length = width := by
  induction width generalizing n with
  | zero => rfl
  | succ width ih => rw [bigEndian, List.length_append, ih]; rfl

theorem ofBigEndian_append (bytes : Bytes) (b : UInt8) :
    ofBigEndian (bytes ++ [b]) = ofBigEndian bytes * 256 + b.toNat := by
  rw [ofBigEndian, List.foldl_append]
  rfl

theorem ofBigEndian_bigEndian (width n : Nat) :
    ofBigEndian (bigEndian width n) = n % Nat.pow 256 width := by
  induction width generalizing n with
  | zero => exact (Nat.mod_one n).symm
  | succ width ih =>
    have hpow : Nat.pow 256 (width + 1) = 256 * Nat.pow 256 width := Nat.mul_comm _ _
    rw [bigEndian, ofBigEndian_append, ih, hpow, Nat.mod_mul, UInt8.toNat_ofNat', Nat.mul_comm,
      Nat.add_comm]

/-! ## Fields -/

def putUInt16 (x : UInt16) : Bytes := bigEndian 2 x.toNat

def putUInt32 (x : UInt32) : Bytes := bigEndian 4 x.toNat

def putInt32 (x : Int32) : Bytes := bigEndian 4 x.toUInt32.toNat

def putInt64 (x : Int64) : Bytes := bigEndian 8 x.toUInt64.toNat

/-- A reader of the front of a byte string; it gives nothing where the bytes end too early. -/
abbrev Getter (α : Type) := Bytes → Option (α × Bytes)

/-- Take `n` bytes. -/
def take (n : Nat) : Getter Bytes := fun s =>
  let front := s.take n
  if front.length = n then some (front, s.drop n) else none

/-- Take a number of `width` bytes. -/
def getNat (width : Nat) : Getter Nat := fun s =>
  (take width s).map fun (bytes, rest) => (ofBigEndian bytes, rest)

def getUInt8 : Getter UInt8
  | b :: rest => some (b, rest)
  | [] => none

def getUInt16 : Getter UInt16 := fun s =>
  (getNat 2 s).map fun (n, rest) => (UInt16.ofNat n, rest)

def getUInt32 : Getter UInt32 := fun s =>
  (getNat 4 s).map fun (n, rest) => (UInt32.ofNat n, rest)

def getInt32 : Getter Int32 := fun s =>
  (getNat 4 s).map fun (n, rest) => ((UInt32.ofNat n).toInt32, rest)

def getInt64 : Getter Int64 := fun s =>
  (getNat 8 s).map fun (n, rest) => ((UInt64.ofNat n).toInt64, rest)

end FederatedTime.Wire
