import SearchJoin.Proofs.Query.Condition
import SearchJoin.Proofs.Query.Faults
import SearchJoin.Proofs.Query.Selection

/-!
# Which predicates have a query

A group has a query when each of its children has one. A predicate that has a query has clauses too, in
filter mode or not. Some comparisons have a query whatever the scalar is that they compare with.

Main statements: `Condition.isOk_query_of_takesAnyScalar`, `Predicate.isOk_compile`.
-/

namespace SearchJoin

/-- The operator compares with any scalar. -/
def Operator.takesAnyScalar : Operator → Bool
  | .eq | .ne | .gt | .ge | .lt | .le | .isIn | .notIn => true
  | _ => false

theorem Operator.takesAnyScalar_of_swapped? {operator other : Operator}
    (h : operator.swapped? = some other) : other.takesAnyScalar = true := by
  cases operator <;> cases h <;> rfl

namespace Condition

variable {c : Condition}

theorem literals_of_operands {values : List Value} (h : c.operands = values.map .literal) :
    c.literals = .ok values := by
  rw [literals, h, mapM_eq_ok_iff, List.forall₂_map_left_iff, List.forall₂_same]
  exact fun _ _ => rfl

theorem scalar_eq_ok {x : Value} (hx : x.isScalar = true) : c.scalar x = .ok x := by
  rw [scalar, if_pos hx]

theorem someScalars_eq_ok {values : List Value} (hne : values ≠ [])
    (hscalars : ∀ x ∈ values, x.isScalar = true) : c.someScalars values = .ok values := by
  cases values with
  | nil => exact absurd rfl hne
  | cons value values =>
    have heach : (value :: values).mapM c.scalar = .ok (value :: values) :=
      mapM_eq_ok_iff.2 (List.forall₂_same.2 fun x hx => scalar_eq_ok (hscalars x hx))
    exact heach

/-- A condition has a query when one can be made from the values of its operands. -/
theorem isOk_query_of_primitiveOf (values : List Value) (hfield : c.field ≠ "")
    (hoperands : c.operands = values.map .literal) (h : (c.primitiveOf values).isOk = true) :
    c.query.isOk = true := by
  rw [query, isOk_bind_pure, primitive, if_neg hfield, literals_of_operands hoperands]
  exact h

/-- A comparison with a scalar has a query. -/
theorem isOk_query_of_takesAnyScalar {x : Value} (hfield : c.field ≠ "")
    (hoperator : c.operator.takesAnyScalar = true) (hoperands : c.operands = [.literal x])
    (hx : x.isScalar = true) : c.query.isOk = true := by
  refine isOk_query_of_primitiveOf [x] hfield hoperands ?_
  have hone : c.oneScalar [x] = .ok x := scalar_eq_ok hx
  have hsome : c.someScalars [x] = .ok [x] :=
    someScalars_eq_ok (List.cons_ne_nil x []) (List.forall_mem_singleton.2 hx)
  unfold primitiveOf
  cases hop : c.operator with
  | eq | ne | gt | ge | lt | le => rw [hone]; rfl
  | isIn | notIn => rw [hsome]; rfl
  | _ => rw [hop] at hoperator; cases hoperator

/-- The choice between scalars, at least one, has a query. -/
theorem isOk_query_isIn {field : String} {values : List Value} (hfield : field ≠ "")
    (hne : values ≠ []) (hscalars : ∀ x ∈ values, x.isScalar = true) :
    (isIn field values).query.isOk = true := by
  refine isOk_query_of_primitiveOf (c := isIn field values) values hfield rfl ?_
  rw [primitiveOf, someScalars_eq_ok hne hscalars]
  rfl

end Condition

namespace Predicate

/-- A group has a query when each of its children has one. -/
theorem isOk_query_group (connector : Connector) (children : List Predicate) :
    (group connector children).query.isOk = children.all fun child => child.query.isOk := by
  rw [Predicate.query, isOk_bind_pure]
  induction children with
  | nil => rfl
  | cons child children ih =>
    rw [List.all_cons, ← ih, queries]
    cases child.query with
    | error e => rfl
    | ok head => exact isOk_bind_pure _ _

/-- A conjunction has a query when each of its members has one. -/
theorem isOk_query_and (predicates : List Predicate) :
    (Predicate.and predicates).query.isOk = predicates.all fun p => p.query.isOk := by
  rw [Predicate.and, isOk_query_group, List.all_map]
  simp only [Function.comp_def, query_withConnector]

/-- A predicate has a query when each of its conditions has one. -/
theorem isOk_query_eq_all (p : Predicate) :
    p.query.isOk = p.conditions.all fun c => c.query.isOk := by
  rw [isOk_eq_isNone_errorOf?, errorOf?_query, Bool.eq_iff_iff, Option.isNone_iff_eq_none,
    List.findSome?_eq_none_iff, List.all_eq_true]
  refine forall₂_congr fun c _ => ?_
  rw [isOk_eq_isNone_errorOf?, Option.isNone_iff_eq_none]

/-- A predicate that has a query has clauses. -/
theorem isOk_compile (p : Predicate) (filterMode : Bool) :
    (p.compile filterMode).isOk = p.query.isOk := by
  rw [isOk_eq_isNone_errorOf?, isOk_eq_isNone_errorOf?, errorOf?_compile, errorOf?_query]

end Predicate

end SearchJoin
