import Gatehouse.Config.Node

/-!
# TOML tables

The tables of a text are built up by headers and by keys with dots. A table is opened by one header
at most, and keys do not reach into a table that a header has opened. A value, such as a table in
braces, is closed.
-/

namespace Gatehouse.Toml

open Config (Node Key)

/-- What is under a key. -/
inductive Entry
  | value (node : Node)
  /-- A table, and whether a header or a key with dots has named it itself. -/
  | table (opened dotted : Bool) (fields : List (String × Entry))
  /-- A list of tables, the last one first. -/
  | tables (items : List (List (String × Entry)))
  deriving Inhabited

/-- The fields of a table. -/
abbrev Fields := List (String × Entry)

/-- Puts an entry under a key. -/
def put (key : String) (entry : Entry) : Fields → Fields
  | [] => [(key, entry)]
  | (k, e) :: rest => if k = key then (key, entry) :: rest else (k, e) :: put key entry rest

/-- Changes the table at a path of headers; of a list of tables it is the last one. Tables on the way
are made where they are missing. -/
def within (change : Fields → Option Fields) : List String → Fields → Option Fields
  | [], fields => change fields
  | k :: ks, fields =>
    match fields.lookup k with
    | none => (within change ks []).map fun sub => put k (.table false false sub) fields
    | some (.table opened dotted sub) =>
      (within change ks sub).map fun sub => put k (.table opened dotted sub) fields
    | some (.tables (last :: items)) =>
      (within change ks last).map fun last => put k (.tables (last :: items)) fields
    | some _ => none

/-- Puts a value under a key with dots, which is not taken yet. -/
def insert (node : Node) : List String → Fields → Option Fields
  | [], _ => none
  | [k], fields => if (fields.lookup k).isSome then none else some (put k (.value node) fields)
  | k :: ks, fields =>
    match fields.lookup k with
    | none => (insert node ks []).map fun sub => put k (.table false true sub) fields
    | some (.table false dotted sub) =>
      (insert node ks sub).map fun sub => put k (.table false dotted sub) fields
    | some _ => none

/-- Opens a table by its header. -/
def openTable (key : String) (fields : Fields) : Option Fields :=
  match fields.lookup key with
  | none => some (put key (.table true false []) fields)
  | some (.table false false sub) => some (put key (.table true false sub) fields)
  | some _ => none

/-- Appends a table to a list of tables. -/
def appendTable (key : String) (fields : Fields) : Option Fields :=
  match fields.lookup key with
  | none => some (put key (.tables [[]]) fields)
  | some (.tables items) => some (put key (.tables ([] :: items)) fields)
  | some _ => none

mutual

/-- The tree of an entry. -/
def Entry.toNode : Entry → Node
  | .value node => node
  | .table _ _ fields => .mapping (nodeFields fields)
  | .tables items => .sequence (nodeTables items).reverse

/-- The trees of the fields of a table. -/
def nodeFields : Fields → List (Key × Node)
  | [] => []
  | (k, e) :: rest => (⟨some k, true⟩, e.toNode) :: nodeFields rest

/-- The trees of tables. -/
def nodeTables : List Fields → List Node
  | [] => []
  | fields :: rest => .mapping (nodeFields fields) :: nodeTables rest

end

/-- A line of a text. -/
inductive Statement
  | header (path : List String)
  | listHeader (path : List String)
  | pair (path : List String) (value : Node)

/-- The root table after some statements, with the path of the table that pairs go to. -/
def run : List Statement → (path : List String) → Fields → Option Fields
  | [], _, root => some root
  | .header path :: rest, _, root => do
    run rest path (← within (openTable (path.getLastD "")) path.dropLast root)
  | .listHeader path :: rest, _, root => do
    run rest path (← within (appendTable (path.getLastD "")) path.dropLast root)
  | .pair keys value :: rest, path, root => do
    run rest path (← within (insert value keys) path root)

end Gatehouse.Toml
