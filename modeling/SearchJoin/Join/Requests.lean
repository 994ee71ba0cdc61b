import SearchJoin.Join.Key
import SearchJoin.Join.Options
import SearchJoin.Predicate.Bind
import SearchJoin.Query.Request

/-!
# The requests of a join

A statement is checked for a strategy before any request is made. The result of the check builds all
requests that an execution sends; the same requests are shown in an explanation.
-/

namespace SearchJoin

/-- The requests of a join before it is executed. -/
structure JoinRequests where
  /-- The strategy. -/
  strategy : Strategy
  /-- The request of the first table. -/
  first : Request
  /-- The request of the second table, to which an execution adds the join. -/
  second : Request
  /-- The parameters of the join. -/
  parameters : Json

/-- A request and its index, as an explanation shows them. -/
def Request.withIndexJson (request : Request) : Json :=
  .obj [("index", .str request.index), ("request", request.body)]

/-- Both requests and the parameters as text, one field a line. -/
def JoinRequests.explain (requests : JoinRequests) : String :=
  Json.pretty (.obj [("first_table", requests.first.withIndexJson), ("join", requests.parameters),
    ("second_table", requests.second.withIndexJson)])

/-- The request of a table: its filter, a size, and its fields. When only some fields are wanted,
further ones are fetched with them. -/
def Table.request (table : Table) (size : UInt64) (further : List String) :
    Except Error Request := do
  let clauses ← Predicate.compileOptional table.filter true
  let request : Request := { index := table.index, query := clauses.toQuery, size := some size }
  if table.fields.isEmpty then return request
  else return (request.withSource table.fields).withSource further

/-- The predicate over both tables, as an explanation shows it. -/
def Join.filterJson (join : Join) : Json := .ofOption (fun filter => .str filter.sql) join.filter

/-- The fields of the two tables that have to be equal. -/
structure KeyPair where
  /-- The field of the first table. -/
  first : String
  /-- The field of the second table. -/
  second : String
  deriving DecidableEq

/-- The field of a side. -/
def KeyPair.field (pair : KeyPair) : Side → String
  | .first => pair.first
  | .second => pair.second

/-- A join that can be executed by hashing keys. -/
structure HashJoin where
  /-- The statement. -/
  join : Join
  /-- The options. -/
  options : JoinOptions
  /-- The key fields, in the order of the `ON` clause. -/
  keys : List KeyPair

namespace HashJoin

/-- The key fields of a condition, which has to be an equality between fields whose declared types
are compatible. -/
def keyPair (join : Join) (condition : Condition) : Except Error KeyPair := do
  if condition.operator ≠ .eq then
    throw (.unsupportedJoinPredicate (.notEquality condition))
  let (first, second) ← join.connectedFields condition
  match join.first.mapping.get? first, join.second.mapping.get? second with
  | some a, some b =>
    if a.compatible b then return ⟨first, second⟩
    else throw (.joinKeyMismatch ⟨s!"{join.first.qualifier}.{first}", a.name⟩
      ⟨s!"{join.second.qualifier}.{second}", b.name⟩)
  | _, _ => return ⟨first, second⟩

/-- Checks that a join can be executed by hashing keys. -/
def ofJoin (join : Join) (options : JoinOptions) : Except Error HashJoin := do
  if join.conditions.isEmpty then throw (.unsupportedJoinPredicate .noKey)
  return ⟨join, options, ← join.conditions.mapM (keyPair join)⟩

/-- The key fields of a side. -/
def keyFields (plan : HashJoin) (side : Side) : List String :=
  plan.keys.map fun pair => pair.field side

/-- The request of a side. -/
def sideRequest (plan : HashJoin) (side : Side) : Except Error Request :=
  (plan.join.table side).request (plan.options.limit side) (plan.keyFields side)

/-- The side whose rows are probed for keys. -/
def probeSide (plan : HashJoin) : Side := plan.options.buildSide.other

/-- The query for the parts that a key field has in a table of keys. -/
def partsQuery (table : KeyTable) (field : String) (position : Nat) : Except Error Query :=
  (Condition.isIn field ((table.distinctParts position).map KeyPart.toValue)).query

/-- The query of the probed table's own filter, if it has one. -/
def ownQueries (table : Table) : Except Error (List Query) :=
  match table.filter with
  | some filter => do return [(← filter.compile false).toQuery]
  | none => .ok []

/-- The request of the probed side: its own filter, and for each key field the parts that it has in
the table of keys. -/
def probeRequest (plan : HashJoin) (table : KeyTable) : Except Error Request := do
  let request ← plan.sideRequest plan.probeSide
  let own ← ownQueries (plan.join.table plan.probeSide)
  let parts ← (plan.keyFields plan.probeSide).zipIdx.mapM fun (field, position) =>
    partsQuery table field position
  return { request with query := Clauses.toQuery { filter := own ++ parts } }

/-- The parameters of the join. -/
def parameters (plan : HashJoin) : Json :=
  .obj [("build_side", .str plan.options.buildSide.name),
    ("connected_where", plan.join.filterJson),
    ("keys", .arr (plan.keys.map fun pair =>
      .obj [("first", .str pair.first), ("second", .str pair.second)])),
    ("limits", plan.options.limitsJson), ("strategy", Strategy.hash.toJson)]

/-- The requests before execution. -/
def requests (plan : HashJoin) : Except Error JoinRequests := do
  let first ← plan.sideRequest .first
  let second ← plan.sideRequest .second
  return ⟨.hash, first, second, plan.parameters⟩

end HashJoin

/-- A join that can be executed by a nested loop. -/
structure NestedLoop where
  /-- The statement. -/
  join : Join
  /-- The options. -/
  options : JoinOptions

namespace NestedLoop

/-- Checks that a join can be executed by a nested loop. -/
def ofJoin (join : Join) (options : JoinOptions) : Except Error NestedLoop := do
  let _ ← join.conditions.mapM join.checkConnected
  return ⟨join, options⟩

/-- The fields of the first table that a condition names. -/
def firstFields (join : Join) (condition : Condition) : List String :=
  (condition.field :: condition.fieldOperand?.toList).filterMap fun name =>
    match join.resolve? name with
    | some (.first, field) => some field
    | _ => none

/-- The fields of the first table that sub-queries take from a row. -/
def referencedFields (join : Join) : List String :=
  let conditions := join.conditions ++ (join.filter.map Predicate.conditions).getD []
  conditions.flatMap (firstFields join)

/-- The request for the rows of the first table. -/
def driveRequest (plan : NestedLoop) : Except Error Request :=
  plan.join.first.request plan.options.firstLimit (referencedFields plan.join)

/-- The conditions of the `ON` clause, bound to a row; none when the row has no match. -/
def boundConditions (join : Join) (row : Document) :
    List Condition → Except Error (Option (List Predicate))
  | [] => .ok (some [])
  | condition :: conditions => do
    match ← join.bindConnected condition row with
    | none => return none
    | some bound =>
      return (← boundConditions join row conditions).map fun rest => .leaf bound :: rest

/-- The predicate over both tables, bound to a row; none when the row has no match. -/
def boundFilter (join : Join) (row : Document) : Except Error (Option (List Predicate)) :=
  match join.filter with
  | none => .ok (some [])
  | some filter => do
    match ← join.bind row filter with
    | .constant false => return none
    | .constant true => return some []
    | .left predicate => return some [predicate]

/-- What a row of the second table has to satisfy to match a row of the first; none when no row
matches it. -/
def subPredicates (plan : NestedLoop) (row : Document) :
    Except Error (Option (List Predicate)) := do
  match ← boundConditions plan.join row plan.join.conditions with
  | none => return none
  | some conditions =>
    match ← boundFilter plan.join row with
    | none => return none
    | some filter => return some (plan.join.second.filter.toList ++ conditions ++ filter)

/-- The clauses of a sub-query. -/
def subClauses (predicates : List Predicate) : Except Error Clauses :=
  if predicates.isEmpty then .ok { filter := [.matchAll] }
  else (Predicate.and predicates).compile true

/-- The request of the second table for a row of the first; none when no row matches it. -/
def subRequest (plan : NestedLoop) (row : Document) : Except Error (Option Request) := do
  match ← plan.subPredicates row with
  | none => return none
  | some predicates =>
    let clauses ← subClauses predicates
    return some (Request.withSource
      { index := plan.join.second.index, query := clauses.toQuery,
        size := some plan.options.secondLimit } plan.join.second.fields)

/-- The parameters of the join. -/
def parameters (plan : NestedLoop) : Json :=
  .obj [("batch_size", .ofUInt64 plan.options.batchSize),
    ("conditions", .ofStrings (plan.join.conditions.map Condition.sql)),
    ("connected_where", plan.join.filterJson), ("limits", plan.options.limitsJson),
    ("max_concurrent_batches", .ofUInt64 plan.options.maxConcurrentBatches),
    ("strategy", Strategy.nestedLoop.toJson)]

/-- The requests before execution. -/
def requests (plan : NestedLoop) : Except Error JoinRequests := do
  let first ← plan.driveRequest
  let second ← plan.join.second.request plan.options.secondLimit []
  return ⟨.nestedLoop, first, second, plan.parameters⟩

end NestedLoop

end SearchJoin
