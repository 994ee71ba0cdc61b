import SearchJoin.Backend.Document
import SearchJoin.Backend.Schedule
import SearchJoin.Query.Request

/-!
# Talking to a search backend

A session is a run that sends calls to a backend and goes on with the answers. It says what is sent
and what becomes of the answers, and leaves open who answers; `Session.run` lets a backend answer.

Batches of a probe are in flight together, as many as there are permits. The backend says in which
order they complete, and this order is one of a schedule.
-/

namespace SearchJoin

/-- The answer to one of several searches that are sent together. -/
inductive Answer where
  /-- The search succeeded. -/
  | hits (hits : Hits)
  /-- The search failed; the others may have succeeded. -/
  | failed (reason : String)

/-- What became of a batch of searches: an answer to each, or an error of the whole call. -/
abbrev Outcome := Except Error (List Answer)

/-- A batch has completed. -/
structure Completion where
  /-- The number of the batch. -/
  batch : Nat
  /-- What became of it. -/
  outcome : Outcome

/-- A run that talks to a backend. -/
inductive Session (α : Type) where
  /-- The run is over. -/
  | done (result : Except Error α)
  /-- One search is sent. -/
  | search (request : Request) (next : Except Error Hits → Session α)
  /-- Batches of searches are sent, at most `permits` of them at once; the run goes on with their
  completions, in order. -/
  | probe (permits : Nat) (batches : List (List Request)) (next : List Completion → Session α)

/-- A call that a backend has received. -/
inductive Call where
  /-- One search. -/
  | search (request : Request)
  /-- Several searches together. -/
  | multiSearch (requests : List Request)

namespace Call

/-- The request of a single search. -/
def search? : Call → Option Request
  | .search request => some request
  | .multiSearch _ => none

/-- The requests of several searches together. -/
def multiSearch? : Call → Option (List Request)
  | .search _ => none
  | .multiSearch requests => some requests

end Call

/-- A search backend. What it answers may depend on the calls that it has received before. -/
structure Backend where
  /-- The answer to a search. -/
  search : List Call → Request → Except Error Hits
  /-- What becomes of a batch of a probe. -/
  multiSearch : List Call → Nat → List Request → Outcome
  /-- The order in which the batches of a probe complete, from the number of permits and the number
  of batches. -/
  order : (permits batches : Nat) → List Nat
  /-- The batches are scheduled. Without a permit no batch ever completes. -/
  order_schedule : ∀ permits batches, 0 < permits →
    Schedule permits (List.range batches) [] (order permits batches)

/-- The completions of batches, in the backend's order. -/
def Backend.completions (backend : Backend) (calls : List Call) (permits : Nat)
    (batches : List (List Request)) : List Completion :=
  (backend.order permits batches.length).map fun batch =>
    ⟨batch, backend.multiSearch calls batch (batches[batch]?.getD [])⟩

namespace Session

variable {α β : Type}

/-- A run that cannot go on after an error. -/
def ofExcept (step : Except Error α) (next : α → Session β) : Session β :=
  match step with
  | .ok x => next x
  | .error e => .done (.error e)

/-- The result of a run with a backend, after some calls, and all calls that have been made. -/
def run (backend : Backend) (calls : List Call) : Session α → Except Error α × List Call
  | .done result => (result, calls)
  | .search request next =>
    (next (backend.search calls request)).run backend (calls ++ [.search request])
  | .probe permits batches next =>
    (next (backend.completions calls permits batches)).run backend
      (calls ++ batches.map Call.multiSearch)

/-- The run with its result mapped. -/
def map (f : α → β) : Session α → Session β
  | .done result => .done (result.map f)
  | .search request next => .search request fun answer => (next answer).map f
  | .probe permits batches next =>
    .probe permits batches fun completions => (next completions).map f

end Session

end SearchJoin
