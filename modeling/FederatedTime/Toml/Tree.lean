import FederatedTime.Toml.Value

/-!
# Building tables

A document spells its tables in pieces: headers open tables, and keys with points open tables in
tables. A `Tree` is a table while it is being built. It remembers how each of its tables came
about, for that decides what may still be added to it: a table is given by one header only, and a
table given by a header is not extended by keys with points.
-/

namespace FederatedTime.Toml

/-- How a table came about. -/
inductive Origin where
  /-- It has a header of its own. -/
  | header
  /-- It lies on the way to a table with a header. -/
  | implied
  /-- It lies on the way of a key with points. -/
  | dotted
deriving DecidableEq

/-- What a key stands for in a table that is being built. -/
inductive Node where
  /-- A value, to which nothing can be added. -/
  | value (v : Value)
  | table (origin : Origin) (entries : List (String × Node))
  /-- An array of tables given by headers; the first is the one that was given last. -/
  | tables (tables : List (List (String × Node)))

/-- A table that is being built. -/
abbrev Tree := List (String × Node)

namespace Tree

/-- What a key stands for. -/
def get? (t : Tree) (k : String) : Option Node := (t.find? (·.1 = k)).map (·.2)

/-- The tree with the meaning of a key replaced, or added. -/
def put (t : Tree) (k : String) (n : Node) : Tree :=
  if t.any (·.1 = k) then t.map fun entry => if entry.1 = k then (k, n) else entry
  else t ++ [(k, n)]

/-! ## Keys -/

/-- Assign a value to a key in the table that the keys `path` lead to. -/
def assign : (path : List String) → (k : String) → (v : Value) → Tree → Option Tree
  | [], k, v, t => if (t.get? k).isSome then none else some (t.put k (.value v))
  | p :: path, k, v, t =>
    match t.get? p with
    | none => (assign path k v []).map fun inner => t.put p (.table .dotted inner)
    | some (.table .dotted inner) =>
      (assign path k v inner).map fun inner => t.put p (.table .dotted inner)
    | some (.table .implied inner) =>
      if path.isEmpty then none
      else (assign path k v inner).map fun inner => t.put p (.table .implied inner)
    | some (.tables (last :: before)) =>
      if path.isEmpty then none
      else (assign path k v last).map fun last => t.put p (.tables (last :: before))
    | some (.table .header _) | some (.tables []) | some (.value _) => none

/-! ## Headers -/

/-- Change the table that the keys of a header lead to, with all tables on the way. -/
def alter (change : Tree → Option Tree) : (path : List String) → Tree → Option Tree
  | [], t => change t
  | p :: path, t =>
    match t.get? p with
    | none => (alter change path []).map fun inner => t.put p (.table .implied inner)
    | some (.table origin inner) =>
      (alter change path inner).map fun inner => t.put p (.table origin inner)
    | some (.tables (last :: before)) =>
      (alter change path last).map fun last => t.put p (.tables (last :: before))
    | some (.tables []) | some (.value _) => none

/-- Give a table by a header. -/
def openTable (k : String) (t : Tree) : Option Tree :=
  match t.get? k with
  | none => some (t.put k (.table .header []))
  | some (.table .implied inner) => some (t.put k (.table .header inner))
  | some _ => none

/-- Give one more table of an array by a header. -/
def openElement (k : String) (t : Tree) : Option Tree :=
  match t.get? k with
  | none => some (t.put k (.tables [[]]))
  | some (.tables tables) => some (t.put k (.tables ([] :: tables)))
  | some _ => none

end Tree

/-! ## The finished value -/

mutual

/-- The value of a node. -/
def Node.toValue : Node → Value
  | .value v => v
  | .table _ entries => .table (Tree.toEntries entries)
  | .tables tables => .array (Tree.toItems tables).reverse

/-- The entries of a finished table. -/
def Tree.toEntries : List (String × Node) → List (String × Value)
  | [] => []
  | (k, n) :: rest => (k, n.toValue) :: Tree.toEntries rest

/-- The finished tables of an array. -/
def Tree.toItems : List (List (String × Node)) → List Value
  | [] => []
  | t :: rest => .table (Tree.toEntries t) :: Tree.toItems rest

end

/-- The finished table. -/
def Tree.toValue (t : Tree) : Value := .table (Tree.toEntries t)

end FederatedTime.Toml
