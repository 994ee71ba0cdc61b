import SearchJoin.Statement.Codec.Predicate
import SearchJoin.Statement.Join

/-!
# Statements in JSON

The JSON forms of hints, tables, selections and joins. A field that may be missing is written as
`null` when it is not there.
-/

namespace SearchJoin

namespace Side

/-- A side in JSON. -/
def toJson (side : Side) : Json := .str side.name

/-- Reads a side. -/
def ofJson? (json : Json) : Option Side :=
  match json.choice? with
  | some "first" => some .first
  | some "second" => some .second
  | _ => none

end Side

namespace HintKind

/-- The name of a kind of hint. -/
def name : HintKind → String
  | .forceNestedLoop => "FORCE_NESTED_LOOP"
  | .multiSearchSize => "NL_MULTI_SEARCH_SIZE"
  | .joinLimit => "JOIN_LIMIT"
  | .hashBuildSide => "HASH_BUILD_SIDE"

/-- The kind of hint of a name. -/
def ofName? : String → Option HintKind
  | "FORCE_NESTED_LOOP" => some .forceNestedLoop
  | "NL_MULTI_SEARCH_SIZE" => some .multiSearchSize
  | "JOIN_LIMIT" => some .joinLimit
  | "HASH_BUILD_SIDE" => some .hashBuildSide
  | _ => none

/-- A kind of hint in JSON. -/
def toJson (kind : HintKind) : Json := .str kind.name

/-- Reads a kind of hint. -/
def ofJson? (json : Json) : Option HintKind := json.choice?.bind ofName?

end HintKind

namespace Hint

/-- A hint in JSON. -/
def toJson (hint : Hint) : Json :=
  let type := ("type", hint.kind.toJson)
  match hint with
  | .forceNestedLoop => .obj [type]
  | .multiSearchSize size => .obj [("size", .ofUInt64 size), type]
  | .joinLimit first second =>
    .obj [("first", .ofUInt64 first), ("second", .ofUInt64 second), type]
  | .hashBuildSide side => .obj [("side", side.toJson), type]

/-- Reads a hint. -/
def ofJson? (json : Json) : Option Hint := do
  let (type, fields) ← json.tagged? "type"
  match ← HintKind.ofName? type with
  | .forceNestedLoop =>
    match fields with
    | .arr (_ :: _) => none
    | _ => some .forceNestedLoop
  | .multiSearchSize =>
    let [size] ← fields.record? ["size"] | none
    return .multiSearchSize (← Json.required? Json.uint64? size)
  | .joinLimit =>
    let [first, second] ← fields.record? ["first", "second"] | none
    let first ← Json.required? Json.uint64? first
    let second ← Json.required? Json.uint64? second
    return .joinLimit first second
  | .hashBuildSide =>
    let [side] ← fields.record? ["side"] | none
    return .hashBuildSide (← Json.required? Side.ofJson? side)

end Hint

namespace FieldType

/-- A field type in JSON. -/
def toJson (type : FieldType) : Json := .str type.name

/-- Reads a field type. -/
def ofJson? (json : Json) : Option FieldType :=
  json.choice?.bind fun name => all.find? fun type => type.name == name

end FieldType

namespace Table

/-- A table in JSON. -/
def toJson (table : Table) : Json :=
  .obj [("alias", .str table.qualifier), ("fields", .ofStrings table.fields),
    ("index", .str table.index),
    ("mapping", .obj (table.mapping.entries.map fun entry => (entry.1, entry.2.toJson))),
    ("where_clause", .ofOption Predicate.toJson table.filter)]

/-- Reads a table. -/
def ofJson? (json : Json) : Option Table := do
  let [qualifier, index, fields, filter, mapping] ←
    json.record? ["alias", "index", "fields", "where_clause", "mapping"] | none
  return {
    qualifier := ← Json.required? Json.string? qualifier
    index := ← Json.required? Json.string? index
    fields := ← Json.defaulted? [] (Json.list? Json.string?) fields
    filter := ← Json.optional? Predicate.ofJson? filter
    mapping := ← Json.defaulted? .empty (Json.map? FieldType.ofJson?) mapping }

end Table

namespace SortOrder

/-- A direction in JSON. -/
def toJson (order : SortOrder) : Json := .str order.name

/-- Reads a direction. -/
def ofJson? (json : Json) : Option SortOrder :=
  match json.choice? with
  | some "asc" => some .ascending
  | some "desc" => some .descending
  | _ => none

end SortOrder

namespace OrderBy

/-- A field to sort by in JSON. -/
def toJson (order : OrderBy) : Json :=
  .obj [("field", .str order.field), ("order", order.order.toJson)]

/-- Reads a field to sort by. -/
def ofJson? (json : Json) : Option OrderBy := do
  let [field, order] ← json.record? ["field", "order"] | none
  return {
    field := ← Json.required? Json.string? field
    order := ← Json.required? SortOrder.ofJson? order }

end OrderBy

namespace Select

/-- A selection in JSON. -/
def toJson (select : Select) : Json :=
  .obj [("limit", .ofOption .ofUInt64 select.limit), ("offset", .ofOption .ofUInt64 select.offset),
    ("order_by", .arr (select.orderBy.map OrderBy.toJson)), ("table", select.table.toJson)]

/-- By position, the limits have to be there. -/
def hasLimits : Json → Bool
  | .arr items => 3 ≤ items.length
  | _ => true

/-- Reads a selection. -/
def ofJson? (json : Json) : Option Select := do
  guard (hasLimits json)
  let [table, offset, limit, orderBy] ←
    json.record? ["table", "offset", "limit", "order_by"] | none
  return {
    table := ← Json.required? Table.ofJson? table
    offset := ← Json.optional? Json.uint64? offset
    limit := ← Json.optional? Json.uint64? limit
    orderBy := ← Json.defaulted? [] (Json.list? OrderBy.ofJson?) orderBy }

end Select

namespace Join

/-- A join in JSON. -/
def toJson (join : Join) : Json :=
  .obj [("connected_conditions", .arr (join.conditions.map Condition.toJson)),
    ("connected_where", .ofOption Predicate.toJson join.filter), ("first", join.first.toJson),
    ("hints", .arr (join.hints.map Hint.toJson)), ("limit", .ofOption .ofUInt64 join.limit),
    ("second", join.second.toJson)]

/-- Reads a join. -/
def ofJson? (json : Json) : Option Join := do
  let [first, second, conditions, filter, hints, limit] ← json.record?
    ["first", "second", "connected_conditions", "connected_where", "hints", "limit"] | none
  return {
    first := ← Json.required? Table.ofJson? first
    second := ← Json.required? Table.ofJson? second
    conditions := ← Json.required? (Json.list? Condition.ofJson?) conditions
    filter := ← Json.optional? Predicate.ofJson? filter
    hints := ← Json.defaulted? [] (Json.list? Hint.ofJson?) hints
    limit := ← Json.optional? Json.uint64? limit }

end Join

end SearchJoin
