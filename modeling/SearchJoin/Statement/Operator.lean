/-!
# Connectors and operators

The words that predicates are built with.

Main statement: `Operator.swapped?_swapped?`, swapping the operands twice gives the operator back.
-/

namespace SearchJoin

/-- How a predicate is combined with its siblings. -/
inductive Connector where
  /-- It has to hold. -/
  | all
  /-- It is an alternative. -/
  | any
  deriving DecidableEq

/-- The comparison that a condition makes. -/
inductive Operator where
  /-- Equal. -/
  | eq
  /-- Not equal. -/
  | ne
  /-- Greater than. -/
  | gt
  /-- Less than. -/
  | lt
  /-- Greater than or equal. -/
  | ge
  /-- Less than or equal. -/
  | le
  /-- Matches a pattern. -/
  | like
  /-- Matches no pattern. -/
  | notLike
  /-- Is one of the operands. -/
  | isIn
  /-- Is none of the operands. -/
  | notIn
  /-- Lies between two operands, which are included. -/
  | between
  /-- Does not lie between two operands. -/
  | notBetween
  /-- Is missing. -/
  | isNull
  /-- Is there. -/
  | isNotNull
  /-- Intersects a shape. -/
  | geoIntersects
  deriving DecidableEq

namespace Operator

/-- The operator that makes the same comparison with its operands swapped, if there is one. -/
def swapped? : Operator → Option Operator
  | .eq => some .eq
  | .ne => some .ne
  | .gt => some .lt
  | .lt => some .gt
  | .ge => some .le
  | .le => some .ge
  | _ => none

theorem swapped?_swapped? {op other : Operator} (h : op.swapped? = some other) :
    other.swapped? = some op := by
  cases op <;> simp_all [swapped?] <;> subst h <;> rfl

/-- The operator in SQL. -/
def sql : Operator → String
  | .eq => "="
  | .ne => "<>"
  | .gt => ">"
  | .lt => "<"
  | .ge => ">="
  | .le => "<="
  | .like => "LIKE"
  | .notLike => "NOT LIKE"
  | .isIn => "IN"
  | .notIn => "NOT IN"
  | .between => "BETWEEN"
  | .notBetween => "NOT BETWEEN"
  | .isNull => "IS NULL"
  | .isNotNull => "IS NOT NULL"
  | .geoIntersects => "GEO_INTERSECTS"

end Operator

end SearchJoin
