import FederatedTime.Toml.Value

/-!
# Reading structures from values

A structure is written as a table with its fields for keys, or as an array with its fields in
order. A table has no other keys; an array may be longer, and what is beyond the fields does not
matter. Readers of fields give nothing where the value is not of their kind.
-/

namespace FederatedTime.Config

open Toml (Value)

/-- A reader of a value. -/
abbrev Field (α : Type) := Value → Option α

/-- The fields of a structure, as they are found in a value. -/
def fields? (names : List String) : Value → Option (String → Option Value)
  | .table entries =>
    if entries.all fun entry => names.contains entry.1 then
      some fun name => (entries.find? (·.1 = name)).map (·.2)
    else none
  | .array items => some fun name => (names.idxOf? name).bind fun i => items[i]?
  | _ => none

/-- A field that has to be there. -/
def required {α : Type} (read : Field α) : Option Value → Option α
  | some v => read v
  | none => none

/-- A field that may be left out. -/
def withDefault {α : Type} (fallback : α) (read : Field α) : Option Value → Option α
  | some v => read v
  | none => some fallback

def text : Field String
  | .string s => some s
  | _ => none

def flag : Field Bool
  | .boolean b => some b
  | _ => none

/-- An integer that is neither below `low` nor above `high`. -/
def integer (low high : Int) : Field Int
  | .integer i => if low ≤ i ∧ i ≤ high then some i else none
  | _ => none

/-- A number that is not negative and below `size`. -/
def natural (size : Nat) : Field Nat := fun v => (integer 0 (size - 1) v).map Int.toNat

def uint16 : Field UInt16 := fun v => (natural UInt16.size v).map UInt16.ofNat

def uint32 : Field UInt32 := fun v => (natural UInt32.size v).map UInt32.ofNat

def int64 : Field Int64 := fun v =>
  (integer Int64.minValue.toInt Int64.maxValue.toInt v).map Int64.ofInt

def listOf {α : Type} (read : Field α) : Field (List α)
  | .array items => items.mapM read
  | _ => none

end FederatedTime.Config
