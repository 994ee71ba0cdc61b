import SearchJoin.Json.Printer
import SearchJoin.Query.Compile

/-!
# Search requests

A request searches one index. Its body is what the backend is sent.
-/

namespace SearchJoin

/-- A search of one index. -/
structure Request where
  /-- The index, which is no part of the body. -/
  index : String
  /-- The query. -/
  query : Query
  /-- How many hits to skip. -/
  from? : Option UInt64 := none
  /-- How many hits to return at most. -/
  size : Option UInt64 := none
  /-- The fields to return; none stands for all. -/
  source : List String := []
  /-- What to sort by. -/
  sort : List OrderBy := []

/-- The strings that are not there yet, one after the other. -/
def addNew (held : List String) (added : List String) : List String :=
  added.foldl (fun held s => if held.contains s then held else held ++ [s]) held

namespace Request

/-- The request with further fields to return; a field that is repeated counts once. -/
def withSource (request : Request) (fields : List String) : Request :=
  { request with source := addNew request.source fields }

/-- The body of the request. -/
def body (request : Request) : Json :=
  .ofPresent [
    ("_source", if request.source.isEmpty then none
      else some (.obj [("includes", .ofStrings request.source)])),
    ("from", request.from?.map .ofUInt64),
    ("query", some request.query.toJson),
    ("size", request.size.map .ofUInt64),
    ("sort", if request.sort.isEmpty then none
      else some (.arr (request.sort.map fun order =>
        .obj [(order.field, .obj [("order", .str order.order.name)])])))]

/-- The body as text, one field a line. -/
def explain (request : Request) : String := request.body.pretty

end Request

namespace Select

/-- The request of a selection. Rows that are ranked by relevance need a query that scores. -/
def request (select : Select) : Except Error Request := do
  let clauses ← Predicate.compileOptional select.table.filter (!select.ordersByScore)
  return Request.withSource
    { index := select.table.index, query := clauses.toQuery, from? := select.offset,
      size := select.limit, sort := select.orderBy } select.table.fields

end Select

end SearchJoin
