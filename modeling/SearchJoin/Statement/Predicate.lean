import SearchJoin.Statement.Condition

/-!
# Predicates

A predicate is a tree of conditions. Each node carries the connector that links it to its siblings:
in a group the children that are connected by `all` have to hold, and the children connected by
`any` are alternatives that count only beside no child of the first kind.
-/

namespace SearchJoin

/-- A tree of conditions. -/
inductive Predicate where
  /-- A condition. -/
  | leaf (condition : Condition)
  /-- A group of predicates. -/
  | group (connector : Connector) (children : List Predicate)

namespace Predicate

/-- How the predicate is combined with its siblings. -/
def connector : Predicate → Connector
  | .leaf condition => condition.connector
  | .group connector _ => connector

/-- The predicate with another connector. -/
def withConnector (connector : Connector) : Predicate → Predicate
  | .leaf condition => .leaf { condition with connector := connector }
  | .group _ children => .group connector children

/-- All of the children hold. -/
def and (children : List Predicate) : Predicate :=
  .group .all (children.map (withConnector .all))

/-- One of the children holds. -/
def or (children : List Predicate) : Predicate :=
  .group .all (children.map (withConnector .any))

/-- The predicate without the groups around it that have one child: such a group says what its
child says. -/
def unwrapSingle : Predicate → Predicate
  | .group _ [child] => unwrapSingle child
  | other => other

mutual

/-- The conditions of the tree, from left to right. -/
def conditions : Predicate → List Condition
  | .leaf condition => [condition]
  | .group _ children => conditionsOf children

/-- The conditions of several trees. -/
def conditionsOf : List Predicate → List Condition
  | [] => []
  | child :: children => conditions child ++ conditionsOf children

end

/-- A connector in SQL, as it stands between two predicates. -/
def connectorSql : Connector → String
  | .all => " AND "
  | .any => " OR "

mutual

/-- The predicate in SQL: a group stands in parentheses, and between two children stands the
connector of the second. -/
def sql : Predicate → String
  | .leaf condition => condition.sql
  | .group _ [] => "()"
  | .group _ (child :: children) => "(" ++ sql child ++ siblingsSql children ++ ")"

/-- Further children of a group in SQL. -/
def siblingsSql : List Predicate → String
  | [] => ""
  | child :: children => connectorSql child.connector ++ sql child ++ siblingsSql children

end

end Predicate

end SearchJoin
