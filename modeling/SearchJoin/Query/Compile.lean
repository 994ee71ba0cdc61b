import SearchJoin.Error
import SearchJoin.Query.Basic

/-!
# Compiling predicates to queries

A condition becomes a query of its own, wrapped when it is scoped. A group becomes a `bool` query:
children connected by `all` are its `must` clauses, children connected by `any` its `should`
clauses. At the root the clauses of a group are the clauses of the result.
-/

namespace SearchJoin

/-- The wildcard pattern of a `LIKE` pattern: `%` becomes `*` and `_` becomes `?`, a backslash makes
them literal, and the wildcards of the engine are escaped. -/
def likeToWildcard : List Char → List Char
  | [] => []
  | '\\' :: '%' :: cs => '%' :: likeToWildcard cs
  | '\\' :: '_' :: cs => '_' :: likeToWildcard cs
  | '\\' :: c :: cs => '\\' :: '\\' :: c :: likeToWildcard cs
  | ['\\'] => ['\\', '\\']
  | '%' :: cs => '*' :: likeToWildcard cs
  | '_' :: cs => '?' :: likeToWildcard cs
  | '*' :: cs => '\\' :: '*' :: likeToWildcard cs
  | '?' :: cs => '\\' :: '?' :: likeToWildcard cs
  | c :: cs => c :: likeToWildcard cs

namespace Condition

/-- The operands, which have to be literals. -/
def literals (c : Condition) : Except Error (List Value) :=
  c.operands.mapM fun
    | .literal value => .ok value
    | .field name => .error (.malformedPredicate c.field (.unboundField name))

/-- The value, which has to be a scalar. -/
def scalar (c : Condition) (value : Value) : Except Error Value :=
  if value.isScalar then .ok value
  else .error (.malformedPredicate c.field (.notScalar c.operator value))

/-- The one value, which has to be a scalar. -/
def oneScalar (c : Condition) : List Value → Except Error Value
  | [value] => c.scalar value
  | values => .error (.malformedPredicate c.field (.notOneValue c.operator values.length))

/-- The one value, which has to be a string. -/
def oneString (c : Condition) (values : List Value) : Except Error String :=
  match values.map Value.string? with
  | [some s] => .ok s
  | _ => .error (.malformedPredicate c.field (.notOneString c.operator))

/-- The two values, which have to be scalars. -/
def twoScalars (c : Condition) : List Value → Except Error (Value × Value)
  | [low, high] => do
    let low ← c.scalar low
    let high ← c.scalar high
    return (low, high)
  | values => .error (.malformedPredicate c.field (.notTwoValues c.operator values.length))

/-- The values, at least one, which have to be scalars. -/
def someScalars (c : Condition) : List Value → Except Error (List Value)
  | [] => .error (.malformedPredicate c.field (.noValue c.operator))
  | values => values.mapM c.scalar

/-- No values. -/
def noValues (c : Condition) : List Value → Except Error Unit
  | [] => .ok ()
  | values => .error (.malformedPredicate c.field (.someValue c.operator values.length))

/-- The query of a condition with these values as its operands, without its scope. -/
def primitiveOf (c : Condition) (values : List Value) : Except Error Query := do
  match c.operator with
  | .eq => return .term c.field (← c.oneScalar values)
  | .ne => return (Query.term c.field (← c.oneScalar values)).negate
  | .gt => return .range c.field { gt := some (← c.oneScalar values) }
  | .ge => return .range c.field { ge := some (← c.oneScalar values) }
  | .lt => return .range c.field { lt := some (← c.oneScalar values) }
  | .le => return .range c.field { le := some (← c.oneScalar values) }
  | .between =>
    let (low, high) ← c.twoScalars values
    return .range c.field { ge := some low, le := some high }
  | .notBetween =>
    let (low, high) ← c.twoScalars values
    return (Query.range c.field { ge := some low, le := some high }).negate
  | .like =>
    let pattern ← c.oneString values
    return .wildcard c.field (.ofList (likeToWildcard pattern.toList))
  | .notLike =>
    let pattern ← c.oneString values
    return (Query.wildcard c.field (.ofList (likeToWildcard pattern.toList))).negate
  | .isIn => return .terms c.field (← c.someScalars values)
  | .notIn => return (Query.terms c.field (← c.someScalars values)).negate
  | .isNull =>
    c.noValues values
    return (Query.exists c.field).negate
  | .isNotNull =>
    c.noValues values
    return .exists c.field
  | .geoIntersects => return .geoShape c.field (← c.oneString values) "intersects"

/-- The query of a condition, without its scope. -/
def primitive (c : Condition) : Except Error Query :=
  if c.field = "" then .error (.malformedPredicate c.field .emptyField)
  else do c.primitiveOf (← c.literals)

end Condition

/-- A query inside a scope. -/
def Scope.wrap : Scope → Query → Query
  | .document, query => query
  | .nested path, query => .nested path query
  | .child childType, query => .hasChild childType query

/-- The query of a condition. -/
def Condition.query (c : Condition) : Except Error Query := do
  return c.scope.wrap (← c.primitive)

/-- The clauses of queries with their connectors. -/
def Clauses.ofConnected (queries : List (Connector × Query)) : Clauses where
  must := (queries.filter fun query => query.1 == .all).map Prod.snd
  should := (queries.filter fun query => query.1 == .any).map Prod.snd

namespace Predicate

mutual

/-- The query of a node of a predicate. -/
def query : Predicate → Except Error Query
  | .leaf condition => condition.query
  | .group _ children => do return (Clauses.ofConnected (← queries children)).toQuery

/-- The queries of siblings, with their connectors. -/
def queries : List Predicate → Except Error (List (Connector × Query))
  | [] => .ok []
  | child :: children => do
    let head ← query child
    let rest ← queries children
    return (child.connector, head) :: rest

end

/-- The clauses of a predicate; groups of one child are opened at the root. -/
def scoringClauses (predicate : Predicate) : Except Error Clauses := do
  match predicate.unwrapSingle with
  | .group _ children => return .ofConnected (← queries children)
  | .leaf condition => return .ofConnected [(condition.connector, ← condition.query)]

/-- The clauses of a predicate. In filter mode they match the same documents and do not count for
the score. -/
def compile (predicate : Predicate) (filterMode : Bool) : Except Error Clauses := do
  let clauses ← predicate.scoringClauses
  if filterMode then return { filter := [clauses.toQuery] } else return clauses

/-- The clauses of a predicate that may be missing; no predicate matches every document. -/
def compileOptional (predicate : Option Predicate) (filterMode : Bool) : Except Error Clauses :=
  match predicate with
  | some predicate => predicate.compile filterMode
  | none =>
    .ok (if filterMode then { filter := [.matchAll] } else { must := [.matchAll] })

end Predicate

end SearchJoin
