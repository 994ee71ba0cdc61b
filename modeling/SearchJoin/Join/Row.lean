import SearchJoin.Backend.Document
import SearchJoin.Json.Printer

/-!
# Rows of a join

A row has the fields of a document of each table. A field of the second document that has a name of
the row already is left out if the values are the same, and gets the qualifier of its table if they
are not.
-/

namespace SearchJoin

/-- A row: names and values in their order. -/
structure Row where
  /-- The fields. -/
  fields : List (String × Value)

namespace Row

/-- The fields of a document that are wanted; an empty list stands for all. -/
def wanted (names : List String) (doc : Document) : List (String × Value) :=
  doc.source.entries.filter fun field => names.isEmpty || names.contains field.1

/-- Adds a field of the second document. -/
def addSecond (qualifier : String) (fields : List (String × Value)) (field : String × Value) :
    List (String × Value) :=
  match fields.lookup field.1 with
  | some held =>
    if held.same field.2 then fields else fields ++ [(s!"{qualifier}.{field.1}", field.2)]
  | none => fields ++ [field]

/-- The row of two documents. -/
def merge (first : Document) (firstFields : List String) (qualifier : String) (second : Document)
    (secondFields : List String) : Row :=
  ⟨(wanted secondFields second).foldl (addSecond qualifier) (wanted firstFields first)⟩

/-- The value under a name. -/
def get? (row : Row) (name : String) : Option Value := row.fields.lookup name

/-- The names, in order. -/
def names (row : Row) : List String := row.fields.map Prod.fst

/-- The row as an object with its fields in order, each as often as it stands in the row. -/
def ordered (row : Row) : Json := .obj (row.fields.map fun field => (field.1, field.2.json))

/-- The row as an object; of a repeated name the last field counts. -/
def toJson (row : Row) : Json := row.ordered.normalize

end Row

end SearchJoin
