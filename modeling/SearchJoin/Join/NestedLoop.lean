import SearchJoin.Backend.Session
import SearchJoin.Join.Hash

/-!
# Executing a join by a nested loop

Each row of the first table gets a query on the second. The queries are sent in batches; the rows
come out in the order of the first table's rows, whatever the order in which batches complete.
-/

namespace SearchJoin

/-- A list in pieces of `size` elements, the last of which may be shorter. A size of zero counts as
one. -/
def chunks {α : Type} (size : Nat) : List α → List (List α)
  | [] => []
  | x :: xs => (x :: xs.take (size - 1)) :: chunks size (xs.drop (size - 1))
termination_by xs => xs.length
decreasing_by simp only [List.length_drop, List.length_cons]; omega

namespace NestedLoop

/-- The documents of answers; the reason of the first that failed else. -/
def documents : List Answer → Except String (List (List Document))
  | [] => .ok []
  | .failed reason :: _ => .error reason
  | .hits hits :: answers => do return hits.hits :: (← documents answers)

/-- The documents that a batch of `size` searches found, or why it failed: the call failed, an
answer is missing or too many, or a search failed. -/
def batchDocuments (size : Nat) : Outcome → Except String (List (List Document))
  | .error e => .error e.message
  | .ok answers =>
    if answers.length = size then documents answers
    else .error s!"expected {size} responses, got {answers.length}"

/-- The documents of the batches that have completed, by the number of the batch. The first batch
that failed, in the order of completion, decides. -/
def gather (batches : List (List Request)) :
    List Completion → Except Error (List (Nat × List (List Document)))
  | [] => .ok []
  | completion :: completions =>
    match batchDocuments (batches[completion.batch]?.getD []).length completion.outcome with
    | .error reason => .error (.probeBatchFailure completion.batch reason)
    | .ok documents => do
      return (completion.batch, documents) :: (← gather batches completions)

/-- The documents that each search found, in the order of the searches. -/
def probeDocuments (batches : List (List Request)) (completions : List Completion) :
    Except Error (List (List Document)) := do
  let gathered ← gather batches completions
  let ordered ← (List.range batches.length).mapM fun batch =>
    match gathered.lookup batch with
    | some documents => .ok documents
    | none => .error (.internal s!"probe batch {batch} never completed")
  return ordered.flatten

/-- The rows of the first table that can match, each with its sub-query. -/
def subRequests (plan : NestedLoop) : List Document → Except Error (List (Document × Request))
  | [] => .ok []
  | row :: rows => do
    match ← plan.subRequest row with
    | some request => return (row, request) :: (← subRequests plan rows)
    | none => subRequests plan rows

/-- The rows of the join: each row of the first table with each document that its sub-query
found. -/
def mergeRows (join : Join) (rows : List Document) (found : List (List Document)) : List Row :=
  (rows.zip found).flatMap fun (first, documents) => documents.map fun second =>
    Row.merge first join.first.fields join.second.qualifier second join.second.fields

/-- The first rows, up to the limit. -/
def limited (limit : Option UInt64) (rows : List Row) : List Row :=
  match limit with
  | some limit => rows.take limit.toNat
  | none => rows

/-- The run from the first table's rows on. -/
def afterDrive (plan : NestedLoop) (rows : List Document) : Session (List Row) :=
  .ofExcept (plan.subRequests rows) fun pairs =>
    let batches := chunks plan.options.batchSize.toNat (pairs.map Prod.snd)
    .probe plan.options.maxConcurrentBatches.toNat batches fun completions => .done do
      let found ← probeDocuments batches completions
      return limited plan.options.totalLimit (mergeRows plan.join (pairs.map Prod.fst) found)

/-- The run of a join. A limit of zero needs no call. -/
def session (plan : NestedLoop) : Session (List Row) :=
  if plan.options.totalLimit = some 0 then .done (.ok [])
  else .ofExcept plan.driveRequest fun request =>
    .search request fun
      | .error e => .done (.error (plan.join.first.failure e))
      | .ok hits => plan.afterDrive hits.hits

end NestedLoop

end SearchJoin
