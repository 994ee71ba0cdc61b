import SearchJoin.Toml.Value

/-!
# Tables under construction

A document defines its tables piece by piece, and no table may be defined twice. Until the document
is complete each table remembers what it was made by: a header of its own, a header of a table
inside it, or a dotted key.
-/

namespace SearchJoin.Toml

/-- What a table was made by. -/
inductive Origin where
  /-- A header that names it. -/
  | header
  /-- A header that names a table inside it. -/
  | implied
  /-- A dotted key. -/
  | dotted
  deriving DecidableEq

/-- A value, a table or an array of tables under construction. -/
inductive Node where
  /-- A value, which is complete. -/
  | leaf (value : Value)
  /-- A table. -/
  | table (origin : Origin) (entries : List (String × Node))
  /-- An array of tables, the last one first. -/
  | array (latest : List (String × Node)) (earlier : List (List (String × Node)))

/-- The entries of a table under construction, in which a key stands once. -/
abbrev Entries := List (String × Node)

mutual

/-- The value of a node that is complete. -/
def Node.value : Node → Value
  | .leaf value => value
  | .table _ entries => .table (Entries.table entries)
  | .array latest earlier =>
    .array ((Entries.tables earlier).reverse ++ [.table (Entries.table latest)])

/-- The table of entries that are complete. -/
def Entries.table : Entries → Table
  | [] => []
  | (key, node) :: entries => (key, node.value) :: Entries.table entries

/-- The tables of an array that is complete. -/
def Entries.tables : List Entries → List Value
  | [] => []
  | entries :: rest => .table (Entries.table entries) :: Entries.tables rest

end

namespace Entries

/-- Puts a node under a key, in place of what stood there. -/
def put (key : String) (node : Node) : Entries → Entries
  | [] => [(key, node)]
  | (other, held) :: rest =>
    if other = key then (key, node) :: rest else (other, held) :: put key node rest

/-- Defines a value under a dotted key. The tables on the way are made by dotted keys: the last of
them has to be so, the others may also stand for headers inside them or be the latest of an
array. -/
def define : List String → Value → Entries → Option Entries
  | [], _, _ => none
  | [key], value, entries =>
    match entries.lookup key with
    | none => some (entries.put key (.leaf value))
    | some _ => none
  | key :: next :: path, value, entries =>
    match entries.lookup key with
    | none =>
      (define (next :: path) value []).map fun inner => entries.put key (.table .dotted inner)
    | some (.table origin inner) =>
      if origin = .dotted ∨ (origin = .implied ∧ path ≠ []) then
        (define (next :: path) value inner).map fun inner => entries.put key (.table origin inner)
      else none
    | some (.array latest earlier) =>
      if path ≠ [] then
        (define (next :: path) value latest).map fun latest =>
          entries.put key (.array latest earlier)
      else none
    | some (.leaf _) => none

/-- Changes the table at a path, which leads through tables and the latest tables of arrays. Tables
that are missing on the way are implied. -/
def within (change : Entries → Option Entries) : List String → Entries → Option Entries
  | [], entries => change entries
  | key :: path, entries =>
    match entries.lookup key with
    | none => (within change path []).map fun inner => entries.put key (.table .implied inner)
    | some (.table origin inner) =>
      (within change path inner).map fun inner => entries.put key (.table origin inner)
    | some (.array latest earlier) =>
      (within change path latest).map fun latest => entries.put key (.array latest earlier)
    | some (.leaf _) => none

/-- Makes the table that a header names; it may be there already only when it is implied. -/
def openTable (key : String) (entries : Entries) : Option Entries :=
  match entries.lookup key with
  | none => some (entries.put key (.table .header []))
  | some (.table .implied inner) => some (entries.put key (.table .header inner))
  | some _ => none

/-- Adds a table to the array that a header names. -/
def extendArray (key : String) (entries : Entries) : Option Entries :=
  match entries.lookup key with
  | none => some (entries.put key (.array [] []))
  | some (.array latest earlier) => some (entries.put key (.array [] (latest :: earlier)))
  | some _ => none

end Entries

end SearchJoin.Toml
