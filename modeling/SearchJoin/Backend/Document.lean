import SearchJoin.Json.Record
import SearchJoin.Text.Blank

/-!
# Documents

What a search backend stores and finds.
-/

namespace SearchJoin

/-- A document. -/
structure Document where
  /-- The identifier. -/
  id : String
  /-- The index that the document comes from. -/
  index : String
  /-- The fields. -/
  source : SortedMap Value

namespace Document

/-- A document of no index; its fields are those of an object, and none for any other value. -/
def ofValue (id : String) (value : Value) : Document :=
  match value with
  | ⟨.obj fields, normal⟩ =>
    ⟨id, "", .ofList (fields.attach.map fun field =>
      (field.1.1, ⟨field.1.2, by
        simp only [Json.Normal] at normal
        exact Json.normalFields_iff.1 normal.2 field.1 field.2⟩))⟩
  | _ => ⟨id, "", .empty⟩

/-- The value at a path: points lead into the objects that a field holds. -/
def get? (doc : Document) (path : String) : Option Value :=
  match (Text.split '.' path.toList).map String.ofList with
  | [] => none
  | name :: names => (doc.source.get? name).bind fun value =>
    names.foldlM (fun value name => value.field? name) value

/-- A document in JSON. -/
def toJson (doc : Document) : Json :=
  .obj [("_id", .str doc.id), ("_index", .str doc.index),
    ("_source", .obj (doc.source.entries.map fun entry => (entry.1, entry.2.json)))]

/-- Reads a document; what is missing is empty. -/
def ofJson? (json : Json) : Option Document := do
  let [id, index, source] ← json.record? ["_id", "_index", "_source"] | none
  return {
    id := ← Json.defaulted? "" Json.string? id
    index := ← Json.defaulted? "" Json.string? index
    source := ← Json.defaulted? .empty (Json.map? fun value => some (.ofJson value)) source }

end Document

/-- The documents that a search finds. -/
structure Hits where
  /-- How many documents match. -/
  total : UInt64
  /-- The documents that are returned, in the order of the backend. -/
  hits : List Document

namespace Hits

/-- Documents that are all there is. -/
def ofDocuments (documents : List Document) : Hits := ⟨.ofNat documents.length, documents⟩

/-- Hits in JSON. -/
def toJson (hits : Hits) : Json :=
  .obj [("hits", .arr (hits.hits.map Document.toJson)), ("total", .ofUInt64 hits.total)]

/-- Reads hits. -/
def ofJson? (json : Json) : Option Hits := do
  let [total, hits] ← json.record? ["total", "hits"] | none
  return {
    total := ← Json.required? Json.uint64? total
    hits := ← Json.required? (Json.list? Document.ofJson?) hits }

end Hits

end SearchJoin
