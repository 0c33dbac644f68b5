import FederatedTime.Toml.Datetime
import FederatedTime.Toml.Number
import FederatedTime.Toml.Quoted
import FederatedTime.Toml.Tree

/-!
# Documents

A document is a row of statements, one to a line: a key with its value, or a header that tells to
which table the keys below it belong. `Document.ofText?` reads the statements and builds the
table that they describe.
-/

namespace FederatedTime.Toml

open Text (Reader)

/-! ## Values -/

/-- Read a boolean. -/
def boolean : Reader Bool := fun cs =>
  ((Text.word "true".toList cs).map fun (_, rest) => (true, rest)) <|>
    ((Text.word "false".toList cs).map fun (_, rest) => (false, rest))

/-- Read a value that is neither an array nor a table. -/
def simpleValue : Reader Value := fun cs =>
  match cs with
  | '"' :: _ => (quotedText false cs).map fun (s, rest) => (.string s, rest)
  | '\x27' :: _ => (quotedText true cs).map fun (s, rest) => (.string s, rest)
  | _ =>
    ((datetime cs).map fun (s, rest) => (.datetime s, rest)) <|>
      ((float cs).map fun (s, rest) => (.float s, rest)) <|>
      ((integer cs).map fun (i, rest) => (.integer i, rest)) <|>
      ((boolean cs).map fun (b, rest) => (.boolean b, rest))

/-- Read the items of an array behind its opening bracket, at most `room` of them. -/
def arrayItems (read : Reader Value) : (room : Nat) → Reader (List Value)
  | 0, _ => none
  | room + 1, cs =>
    match skipBlanks false cs with
    | ']' :: rest => some ([], rest)
    | cs => do
      let (v, cs) ← read cs
      match skipBlanks false cs with
      | ',' :: rest =>
        let (vs, rest) ← arrayItems read room rest
        pure (v :: vs, rest)
      | ']' :: rest => pure ([v], rest)
      | _ => none

/-- A key with its value, as it is assigned in a table. -/
structure Assignment where
  path : List String
  key : String
  value : Value

/-- Read a key and its value. -/
def assignment (read : Reader Value) : Reader Assignment := fun cs => do
  let (ks, cs) ← keyPath maxDepth cs
  let k ← ks.getLast?
  let (_, cs) ← Text.mark '=' cs
  let (v, cs) ← read (skipSpaces cs)
  pure (⟨ks.dropLast, k, v⟩, cs)

/-- Read the assignments of a table behind its opening brace, at least one and at most `room` of
them. -/
def tableItems (read : Reader Value) : (room : Nat) → Reader (List Assignment)
  | 0, _ => none
  | room + 1, cs => do
    let (a, cs) ← assignment read cs
    match skipSpaces cs with
    | ',' :: rest =>
      let (as, rest) ← tableItems read room rest
      pure (a :: as, rest)
    | '\x7d' :: rest => pure ([a], rest)
    | _ => none

/-- The tree in which the assignments have been made in turn. -/
def assignAll (t : Tree) (as : List Assignment) : Option Tree :=
  as.foldlM (fun t a => t.assign a.path a.key a.value) t

/-- Read a table behind its opening brace. -/
def inlineTable (read : Reader Value) : Reader Value := fun cs =>
  match skipSpaces cs with
  | '\x7d' :: rest => some (.table [], rest)
  | _ => do
    let (as, rest) ← tableItems read cs.length cs
    let t ← assignAll [] as
    pure (t.toValue, rest)

/-- Read a value in which arrays and tables lie in each other at most `depth` deep. -/
def value : (depth : Nat) → Reader Value
  | 0, cs => simpleValue cs
  | depth + 1, cs =>
    match cs with
    | '[' :: rest =>
      (arrayItems (value depth) (rest.length + 1) rest).map fun (vs, rest) => (.array vs, rest)
    | '\x7b' :: rest => inlineTable (value depth) rest
    | _ => simpleValue cs

/-! ## Statements -/

/-- A line of a document. -/
inductive Statement where
  /-- The header of a table. -/
  | table (path : List String)
  /-- The header of a table in an array of tables. -/
  | element (path : List String)
  | assign (a : Assignment)

/-- Read a header behind its opening bracket. -/
def header : Reader Statement := fun cs =>
  match cs with
  | '[' :: rest => do
    let (path, rest) ← keyPath maxDepth rest
    let (_, rest) ← Text.word [']', ']'] rest
    pure (.element path, rest)
  | _ => do
    let (path, rest) ← keyPath maxDepth cs
    let (_, rest) ← Text.mark ']' rest
    pure (.table path, rest)

/-- Read a statement with the end of its line. -/
def statement : Reader Statement := fun cs => do
  let (s, rest) ← match cs with
    | '[' :: rest => header rest
    | _ => (assignment (value maxDepth) cs).map fun (a, rest) => (.assign a, rest)
  let (_, rest) ← statementEnd rest
  pure (s, rest)

/-- Read all statements of a document, at most `room` of them. -/
def statements : (room : Nat) → List Char → Option (List Statement)
  | 0, _ => none
  | room + 1, cs =>
    match skipBlanks false cs with
    | [] => some []
    | cs => do
      let (s, rest) ← statement cs
      let more ← statements room rest
      pure (s :: more)

/-! ## Documents -/

/-- The table that a document describes while it is being read, and the keys of the header that was
opened last. -/
structure Progress where
  tree : Tree
  opened : List String

namespace Progress

/-- Open what a header gives, in the table before its last key. -/
def openWith (p : Progress) (opener : String → Tree → Option Tree) (path : List String) :
    Option Progress := do
  let k ← path.getLast?
  let t ← p.tree.alter (opener k) path.dropLast
  pure ⟨t, path⟩

/-- The progress that a statement makes. -/
def step (p : Progress) : Statement → Option Progress
  | .table path => p.openWith Tree.openTable path
  | .element path => p.openWith Tree.openElement path
  | .assign a =>
    (p.tree.alter (Tree.assign a.path a.key a.value) p.opened).map fun t => ⟨t, p.opened⟩

end Progress

namespace Document

/-- The table that statements describe. -/
def ofStatements? (ss : List Statement) : Option Value := do
  let p ← ss.foldlM Progress.step ⟨[], []⟩
  pure p.tree.toValue

/-- The table that a text describes. A byte-order mark in front is passed over. -/
def ofText? (s : String) : Option Value := do
  let cs := match s.toList with
    | '\ufeff' :: rest => rest
    | cs => cs
  let ss ← statements (cs.length + 1) cs
  ofStatements? ss

end Document

end FederatedTime.Toml
