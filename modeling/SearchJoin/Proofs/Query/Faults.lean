import SearchJoin.Proofs.Except
import SearchJoin.Query.Compile

/-!
# Why compiling fails

A predicate is compiled condition by condition, so it fails where one of its conditions does. A condition
fails for its own field: because the field has no name, because the number or the kind of its values does
not fit, or because one of its operands is a field itself.

Main statements: `Condition.errorsIn_query`, `Predicate.errorOf?_compile`.
-/

namespace SearchJoin

namespace Condition

variable (c : Condition)

/-- The error is about the condition's field. Only an operand of the condition is named as unbound. -/
def Faults (e : Error) : Prop :=
  ∃ fault, e = .malformedPredicate c.field fault ∧
    ∀ name, fault = .unboundField name → .field name ∈ c.operands

theorem errorsIn_literals : ErrorsIn c.Faults c.literals := by
  refine .mapM fun operand hoperand => ?_
  cases operand with
  | literal value => exact .ok value
  | field name => exact .error ⟨_, rfl, by rintro _ ⟨⟩; exact hoperand⟩

theorem errorsIn_scalar (value : Value) : ErrorsIn c.Faults (c.scalar value) := by
  unfold scalar
  split
  · exact .ok value
  · exact .error ⟨_, rfl, nofun⟩

theorem errorsIn_oneScalar (values : List Value) : ErrorsIn c.Faults (c.oneScalar values) := by
  unfold oneScalar
  split
  · exact c.errorsIn_scalar _
  · exact .error ⟨_, rfl, nofun⟩

theorem errorsIn_oneString (values : List Value) : ErrorsIn c.Faults (c.oneString values) := by
  unfold oneString
  split
  · exact .ok _
  · exact .error ⟨_, rfl, nofun⟩

theorem errorsIn_twoScalars (values : List Value) : ErrorsIn c.Faults (c.twoScalars values) := by
  unfold twoScalars
  split
  · refine (c.errorsIn_scalar _).bind fun low _ => ?_
    exact (c.errorsIn_scalar _).bind fun high _ => .ok _
  · exact .error ⟨_, rfl, nofun⟩

theorem errorsIn_someScalars (values : List Value) : ErrorsIn c.Faults (c.someScalars values) := by
  unfold someScalars
  split
  · exact .error ⟨_, rfl, nofun⟩
  · exact .mapM fun value _ => c.errorsIn_scalar value

theorem errorsIn_noValues (values : List Value) : ErrorsIn c.Faults (c.noValues values) := by
  unfold noValues
  split
  · exact .ok ()
  · exact .error ⟨_, rfl, nofun⟩

theorem errorsIn_primitiveOf (values : List Value) : ErrorsIn c.Faults (c.primitiveOf values) := by
  unfold primitiveOf
  cases c.operator with
  | eq | ne | gt | ge | lt | le => exact (c.errorsIn_oneScalar values).bind fun value _ => .ok _
  | between | notBetween => exact (c.errorsIn_twoScalars values).bind fun (low, high) _ => .ok _
  | like | notLike => exact (c.errorsIn_oneString values).bind fun pattern _ => .ok _
  | isIn | notIn => exact (c.errorsIn_someScalars values).bind fun scalars _ => .ok _
  | isNull | isNotNull => exact (c.errorsIn_noValues values).bind fun _ _ => .ok _
  | geoIntersects => exact (c.errorsIn_oneString values).bind fun shape _ => .ok _

theorem errorsIn_query : ErrorsIn c.Faults c.query := by
  refine .bind ?_ fun query _ => .ok _
  unfold primitive
  split
  · exact .error ⟨_, rfl, nofun⟩
  · exact c.errorsIn_literals.bind fun values _ => c.errorsIn_primitiveOf values

end Condition

namespace Predicate

mutual

/-- The query of a predicate fails for its first condition that has no query. -/
theorem errorOf?_query : (p : Predicate) →
    errorOf? p.query = p.conditions.findSome? fun c => errorOf? c.query
  | .leaf condition => by
    rw [query, conditions, List.findSome?_singleton]
  | .group _ children => by
    rw [query, errorOf?_bind_pure, errorOf?_queries children, conditions]

theorem errorOf?_queries : (children : List Predicate) →
    errorOf? (queries children) = (conditionsOf children).findSome? fun c => errorOf? c.query
  | [] => rfl
  | child :: children => by
    rw [queries, errorOf?_bind_bind_pure, errorOf?_query child, errorOf?_queries children,
      conditionsOf, List.findSome?_append]

end

theorem conditions_unwrapSingle : (p : Predicate) → p.unwrapSingle.conditions = p.conditions
  | .leaf _ => rfl
  | .group _ [] => rfl
  | .group _ [child] => by
    rw [unwrapSingle, conditions_unwrapSingle child]
    simp [conditions, conditionsOf]
  | .group _ (_ :: _ :: _) => rfl

theorem errorOf?_scoringClauses (p : Predicate) :
    errorOf? p.scoringClauses = p.conditions.findSome? fun c => errorOf? c.query := by
  rw [← conditions_unwrapSingle, ← errorOf?_query, scoringClauses]
  cases p.unwrapSingle with
  | leaf condition => rw [query]; exact errorOf?_bind_pure _ _
  | group connector children =>
    rw [query]
    exact (errorOf?_bind_pure _ _).trans (errorOf?_bind_pure _ _).symm

/-- Compiling a predicate fails for the first condition that has no query, in filter mode or not. -/
theorem errorOf?_compile (p : Predicate) (filterMode : Bool) :
    errorOf? (p.compile filterMode) = p.conditions.findSome? fun c => errorOf? c.query := by
  rw [← errorOf?_scoringClauses, compile]
  cases filterMode with
  | false => exact errorOf?_bind_pure _ _
  | true => exact errorOf?_bind_pure _ _

/-- Compiling a predicate fails where a condition of it does. -/
theorem errorsIn_compile {P : Error → Prop} {p : Predicate}
    (h : ∀ c ∈ p.conditions, ErrorsIn P c.query) (filterMode : Bool) :
    ErrorsIn P (p.compile filterMode) := by
  intro e he
  rw [← errorOf?_eq_some, errorOf?_compile] at he
  obtain ⟨c, hc, hquery⟩ := List.exists_of_findSome?_eq_some he
  exact h c hc e (errorOf?_eq_some.1 hquery)

end Predicate

end SearchJoin
