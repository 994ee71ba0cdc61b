import SearchJoin.Join.NestedLoop

/-!
# Plans of statements

A plan says how a statement is executed. It can be explained, turned into requests and run.
-/

namespace SearchJoin

/-- How a statement is executed. -/
inductive Plan where
  /-- A single search. -/
  | select (statement : Select)
  /-- A join by the strategy, with its options. -/
  | join (strategy : Strategy) (statement : Join) (options : JoinOptions)

/-- The requests of a plan before it is run. -/
inductive PlanRequests where
  /-- A single search. -/
  | search (request : Request)
  /-- The requests of a join. -/
  | join (requests : JoinRequests)

/-- The requests as text, one field a line. -/
def PlanRequests.explain : PlanRequests → String
  | .search request => request.explain
  | .join requests => requests.explain

/-- The result of a statement. -/
inductive Output where
  /-- The hits of a single search. -/
  | hits (hits : Hits)
  /-- The rows of a join. -/
  | rows (rows : List Row)

namespace Plan

/-- The plan of a join with the strategy that suits it. -/
def ofJoin (settings : JoinSettings) (statement : Join) : Except Error Plan := do
  return .join statement.strategy statement (← JoinOptions.resolve settings statement)

/-- The plan of a join with a strategy of the caller's choice. -/
def ofJoinWith (strategy : Strategy) (settings : JoinSettings) (statement : Join) :
    Except Error Plan := do
  return .join strategy statement (← JoinOptions.resolve settings statement)

/-- The strategy of a join. -/
def strategy? : Plan → Option Strategy
  | .select _ => none
  | .join strategy _ _ => some strategy

/-- The requests of a plan. -/
def requests : Plan → Except Error PlanRequests
  | .select statement => do return .search (← statement.request)
  | .join .hash statement options => do
    return .join (← (← HashJoin.ofJoin statement options).requests)
  | .join .nestedLoop statement options => do
    return .join (← (← NestedLoop.ofJoin statement options).requests)

/-- The requests of a plan as text. -/
def explain (plan : Plan) : Except Error String := do return (← plan.requests).explain

/-- The run of a plan. -/
def session : Plan → Session Output
  | .select statement => .ofExcept statement.request fun request =>
    .search request fun answer => .done (answer.map Output.hits)
  | .join .hash statement options => .ofExcept (HashJoin.ofJoin statement options) fun plan =>
    plan.session.map Output.rows
  | .join .nestedLoop statement options =>
    .ofExcept (NestedLoop.ofJoin statement options) fun plan => plan.session.map Output.rows

end Plan

end SearchJoin
