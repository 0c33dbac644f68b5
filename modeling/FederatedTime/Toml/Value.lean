/-!
# Values of a TOML document

What a key of a document stands for. Numbers with a fraction and dates are kept as they are
written; nothing here computes with them.
-/

namespace FederatedTime.Toml

/-- A value of a document. -/
inductive Value where
  | string (s : String)
  | integer (i : Int)
  | float (text : String)
  | boolean (b : Bool)
  | datetime (text : String)
  | array (items : List Value)
  /-- The keys of a table are distinct. -/
  | table (entries : List (String × Value))

instance : Inhabited Value := ⟨.boolean false⟩

end FederatedTime.Toml
