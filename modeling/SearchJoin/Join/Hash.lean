import SearchJoin.Backend.Session
import SearchJoin.Join.Requests
import SearchJoin.Join.Row

/-!
# Executing a join by hashing keys

The rows of the build side are fetched and grouped by key. The probe side is then fetched as far as
it has these keys, and each of its rows is put together with the build rows of its key.
-/

namespace SearchJoin

/-- The query of a table failed. -/
def Table.failure (table : Table) (e : Error) : Error := .joinSideFailure table.qualifier e.message

namespace HashJoin

/-- A document of the build side and one of the probe side, as documents of the first and the second
table. -/
def orient (plan : HashJoin) (build probe : Document) : Document × Document :=
  match plan.options.buildSide with
  | .first => (build, probe)
  | .second => (probe, build)

/-- The error for a part that the probe side's declared type cannot hold. -/
def partMismatch (plan : HashJoin) (part : KeyPart) (declared : FieldType) (pair : KeyPair) :
    Error :=
  let buildSide := plan.options.buildSide
  let side (s : Side) (kind : String) : KeySide :=
    ⟨s!"{(plan.join.table s).qualifier}.{pair.field s}", kind⟩
  let build := side buildSide part.kind
  let probe := side plan.probeSide declared.name
  match buildSide with
  | .first => .joinKeyMismatch build probe
  | .second => .joinKeyMismatch probe build

/-- The first part of a key that the probe side's declared type cannot hold. -/
def keyMismatch? (plan : HashJoin) (key : Key) : Option Error :=
  (key.zip plan.keys).findSome? fun (part, pair) =>
    match (plan.join.table plan.probeSide).mapping.get? (pair.field plan.probeSide) with
    | some declared =>
      if part.fits declared then none else some (plan.partMismatch part declared pair)
    | none => none

/-- The build rows of a probe row's key, each with the probe row. -/
def partners (plan : HashJoin) (table : KeyTable) (build : List Document) (probe : Document) :
    List (Document × Document) :=
  match Key.ofDocument? (plan.keyFields plan.probeSide) probe with
  | none => []
  | some key => (table.rows key).filterMap fun row =>
    build[row]?.map fun doc => plan.orient doc probe

/-- The row of a pair, unless the predicate over both tables does not hold. -/
def combine (join : Join) (pair : Document × Document) : Except Error (Option Row) := do
  let holds ← match join.filter with
    | some filter => join.pairHolds filter pair.1 pair.2
    | none => pure true
  if holds then
    return some (Row.merge pair.1 join.first.fields join.second.qualifier pair.2 join.second.fields)
  else return none

/-- The rows of pairs, at most `limit` of them. No pair is looked at after the last row. -/
def collect (join : Join) (limit : Option Nat) :
    List (Document × Document) → Except Error (List Row)
  | [] => .ok []
  | pair :: pairs =>
    if limit = some 0 then .ok []
    else do
      match ← combine join pair with
      | some row => return row :: (← collect join (limit.map (· - 1)) pairs)
      | none => collect join limit pairs

/-- The run from the probe side's documents on. -/
def finish (plan : HashJoin) (table : KeyTable) (build probe : List Document) :
    Except Error (List Row) :=
  collect plan.join (plan.options.totalLimit.map UInt64.toNat)
    (probe.flatMap (plan.partners table build))

/-- The run from the build side's documents on. -/
def afterBuild (plan : HashJoin) (build : List Document) : Session (List Row) :=
  let table := KeyTable.ofDocuments (plan.keyFields plan.options.buildSide) build
  if table.isEmpty then .done (.ok [])
  else match table.keys.findSome? plan.keyMismatch? with
    | some e => .done (.error e)
    | none => .ofExcept (plan.probeRequest table) fun request =>
      .search request fun
        | .error e => .done (.error ((plan.join.table plan.probeSide).failure e))
        | .ok hits => .done (plan.finish table build hits.hits)

/-- The run of a join. A limit of zero needs no call, and neither does a build side without keys
need the probe side. -/
def session (plan : HashJoin) : Session (List Row) :=
  if plan.options.totalLimit = some 0 then .done (.ok [])
  else .ofExcept (plan.sideRequest plan.options.buildSide) fun request =>
    .search request fun
      | .error e => .done (.error ((plan.join.table plan.options.buildSide).failure e))
      | .ok hits => plan.afterBuild hits.hits

end HashJoin

end SearchJoin
