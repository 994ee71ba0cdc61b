import SearchJoin.Error
import SearchJoin.Settings.Basic

/-!
# Strategies and options of a join

A join is executed by hashing keys or by a nested loop. Its options come from its hints, else from
its limit, else from the settings; of two hints of one kind the last counts.
-/

namespace SearchJoin

/-- How a join is executed. -/
inductive Strategy where
  /-- The keys of one table are collected, and the other table is searched for them. -/
  | hash
  /-- Each row of the first table gets a query on the second. -/
  | nestedLoop
  deriving DecidableEq

namespace Strategy

/-- The name of a strategy. -/
def name : Strategy → String
  | .hash => "hash_join"
  | .nestedLoop => "nested_loop_join"

/-- A strategy in JSON. -/
def toJson (strategy : Strategy) : Json := .str strategy.name

/-- Reads a strategy. -/
def ofJson? (json : Json) : Option Strategy :=
  match json.choice? with
  | some "hash_join" => some .hash
  | some "nested_loop_join" => some .nestedLoop
  | _ => none

end Strategy

/-- The strategy of a join: keys are hashed when the `ON` clause has conditions, all of them are
equalities, and no hint asks for a nested loop. -/
def Join.strategy (join : Join) : Strategy :=
  if join.conditions.isEmpty || join.conditions.any (fun c => c.operator != .eq) then .nestedLoop
  else if join.hints.any (fun hint => hint.kind == .forceNestedLoop) then .nestedLoop
  else .hash

/-- The options of a join. -/
structure JoinOptions where
  /-- How many sub-queries of a nested loop go into one call. -/
  batchSize : UInt64
  /-- How many calls of a nested loop are in flight at once. -/
  maxConcurrentBatches : UInt64
  /-- How many rows of the first table are fetched at most. -/
  firstLimit : UInt64
  /-- How many rows of the second table are fetched at most. -/
  secondLimit : UInt64
  /-- The side whose keys a hash join collects. -/
  buildSide : Side
  /-- How many rows are returned at most. -/
  totalLimit : Option UInt64
  deriving DecidableEq

namespace JoinOptions

/-- The options with a hint. -/
def applyHint (options : JoinOptions) : Hint → JoinOptions
  | .multiSearchSize size => { options with batchSize := size }
  | .joinLimit first second => { options with firstLimit := first, secondLimit := second }
  | .hashBuildSide side => { options with buildSide := side }
  | .forceNestedLoop => options

/-- The row limit of a table without a hint: that of the statement unless it is zero, else the
default. -/
def tableLimit (settings : JoinSettings) (join : Join) : UInt64 :=
  (join.limit.filter fun limit => limit > 0).getD settings.defaultTableLimit

/-- The options before the hints. -/
def base (settings : JoinSettings) (join : Join) : JoinOptions where
  batchSize := settings.multiSearchMaxSize
  maxConcurrentBatches := settings.maxConcurrentBatches
  firstLimit := tableLimit settings join
  secondLimit := tableLimit settings join
  buildSide := .first
  totalLimit := join.limit

/-- The options with all hints. -/
def hinted (settings : JoinSettings) (join : Join) : JoinOptions :=
  join.hints.foldl applyHint (base settings join)

/-- A size that has to be positive. -/
def requirePositive (key : String) (size : UInt64) : Except Error Unit :=
  if size = 0 then .error (.config s!"{key} must be >= 1") else .ok ()

/-- The options of a join. -/
def resolve (settings : JoinSettings) (join : Join) : Except Error JoinOptions := do
  let options := hinted settings join
  requirePositive "join.multi_search_max_size" options.batchSize
  requirePositive "join.max_concurrent_batches" options.maxConcurrentBatches
  requirePositive "join.default_table_limit" (tableLimit settings join)
  return options

/-- The row limit of a side. -/
def limit (options : JoinOptions) : Side → UInt64
  | .first => options.firstLimit
  | .second => options.secondLimit

/-- The limits, as an explanation shows them. -/
def limitsJson (options : JoinOptions) : Json :=
  .obj [("first", .ofUInt64 options.firstLimit), ("second", .ofUInt64 options.secondLimit),
    ("total", .ofOption .ofUInt64 options.totalLimit)]

/-- The options in JSON. -/
def toJson (options : JoinOptions) : Json :=
  .ofPresent [("batch_size", some (.ofUInt64 options.batchSize)),
    ("build_side", some (.str options.buildSide.name)),
    ("first_limit", some (.ofUInt64 options.firstLimit)),
    ("max_concurrent_batches", some (.ofUInt64 options.maxConcurrentBatches)),
    ("second_limit", some (.ofUInt64 options.secondLimit)),
    ("total_limit", options.totalLimit.map .ofUInt64)]

end JoinOptions

end SearchJoin
