import SearchJoin.Json.Normal

/-!
# Queries of the search engine

The queries that a search backend understands, and their JSON form. Names in an object stand in
ascending order, so the JSON form of a query is in normal form.
-/

namespace SearchJoin

/-- The bounds of a range. A bound that is not set is left out. -/
structure Bounds where
  /-- The value is greater. -/
  gt : Option Value := none
  /-- The value is greater or equal. -/
  ge : Option Value := none
  /-- The value is less. -/
  lt : Option Value := none
  /-- The value is less or equal. -/
  le : Option Value := none

/-- The bounds in JSON. -/
def Bounds.toJson (bounds : Bounds) : Json :=
  .ofPresent [("gt", bounds.gt.map Value.json), ("gte", bounds.ge.map Value.json),
    ("lt", bounds.lt.map Value.json), ("lte", bounds.le.map Value.json)]

/-- A query. -/
inductive Query where
  /-- All of `must` and of `filter` match and none of `mustNot`; one of `should` matches where there
  is neither `must` nor `filter`. -/
  | bool (must should mustNot filter : List Query)
  /-- The field has the value. -/
  | term (field : String) (value : Value)
  /-- The field has one of the values. -/
  | terms (field : String) (values : List Value)
  /-- The field lies in a range. -/
  | range (field : String) (bounds : Bounds)
  /-- The field matches a pattern of `*`, any characters, and `?`, any one character. -/
  | wildcard (field pattern : String)
  /-- The field is there and not `null`. -/
  | exists (field : String)
  /-- The field relates to a shape. -/
  | geoShape (field shape relation : String)
  /-- An object nested under the path matches. -/
  | nested (path : String) (query : Query)
  /-- A child document of the type matches. -/
  | hasChild (childType : String) (query : Query)
  /-- Every document matches. -/
  | matchAll

/-- The clauses of a `bool` query. -/
structure Clauses where
  /-- Clauses that have to match and count for the score. -/
  must : List Query := []
  /-- Alternatives. -/
  should : List Query := []
  /-- Clauses that must not match. -/
  mustNot : List Query := []
  /-- Clauses that have to match and do not count for the score. -/
  filter : List Query := []

namespace Clauses

/-- The `bool` query of the clauses. -/
def toQuery (clauses : Clauses) : Query :=
  .bool clauses.must clauses.should clauses.mustNot clauses.filter

/-- There is no clause. -/
def isEmpty (clauses : Clauses) : Bool :=
  clauses.must.isEmpty && clauses.should.isEmpty && clauses.mustNot.isEmpty &&
    clauses.filter.isEmpty

end Clauses

namespace Query

/-- The query that matches where this one does not. -/
def negate (query : Query) : Query := .bool [] [] [query] []

/-- A list of clauses, which is left out when it is empty. -/
def clauseField (name : String) (clauses : List Json) : String × Option Json :=
  (name, if clauses.isEmpty then none else some (.arr clauses))

mutual

/-- The query in JSON. -/
def toJson : Query → Json
  | .bool must should mustNot filter =>
    .obj [("bool", .ofPresent [clauseField "filter" (listToJson filter),
      clauseField "must" (listToJson must), clauseField "must_not" (listToJson mustNot),
      clauseField "should" (listToJson should)])]
  | .term field value => .obj [("term", .obj [(field, value.json)])]
  | .terms field values => .obj [("terms", .obj [(field, .arr (values.map Value.json))])]
  | .range field bounds => .obj [("range", .obj [(field, bounds.toJson)])]
  | .wildcard field pattern => .obj [("wildcard", .obj [(field, .str pattern)])]
  | .exists field => .obj [("exists", .obj [("field", .str field)])]
  | .geoShape field shape relation =>
    .obj [("geo_shape", .obj [(field, .obj [("relation", .str relation), ("shape", .str shape)])])]
  | .nested path query => .obj [("nested", .obj [("path", .str path), ("query", toJson query)])]
  | .hasChild childType query =>
    .obj [("has_child", .obj [("query", toJson query), ("type", .str childType)])]
  | .matchAll => .obj [("match_all", .obj [])]

/-- Several queries in JSON. -/
def listToJson : List Query → List Json
  | [] => []
  | query :: queries => toJson query :: listToJson queries

end

end Query

end SearchJoin
