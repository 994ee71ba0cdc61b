import SearchJoin.Proofs.Query.Compiles

/-!
# Which predicates can be compiled

A condition is well-formed when its field has a name, its operands are literals and its operator can take
them. A predicate can be compiled exactly when all of its conditions are well-formed, however they are
grouped, connected and scoped. Else the error is that of the first condition, from left to right, that is
not well-formed, and names its field.

Main statement: `Predicate.isOk_compile_iff_isWellFormed`.
-/

namespace SearchJoin

/-- The value of an operand that is a literal. -/
def Operand.literal? : Operand → Option Value
  | .literal value => some value
  | .field _ => none

/-- The operator can take the values as its operands. -/
def Operator.accepts (operator : Operator) (values : List Value) : Bool :=
  match operator with
  | .eq | .ne | .gt | .ge | .lt | .le => values.length == 1 && values.all Value.isScalar
  | .between | .notBetween => values.length == 2 && values.all Value.isScalar
  | .isIn | .notIn => values.length != 0 && values.all Value.isScalar
  | .like | .notLike | .geoIntersects =>
    values.length == 1 && values.all fun value => value.string?.isSome
  | .isNull | .isNotNull => values.length == 0

namespace Condition

variable (c : Condition)

/-- The field has a name, all operands are literals, and the operator can take them. -/
def isWellFormed : Bool :=
  c.field != "" && (c.operands.mapM Operand.literal?).any c.operator.accepts

/-! ## The operands of an operator -/

theorem isOk_scalar (value : Value) : (c.scalar value).isOk = value.isScalar := by
  unfold scalar
  cases value.isScalar with
  | false => rfl
  | true => rfl

theorem isOk_oneScalar (values : List Value) :
    (c.oneScalar values).isOk = (values.length == 1 && values.all Value.isScalar) := by
  match values with
  | [] => rfl
  | [value] => rw [oneScalar, isOk_scalar]; simp
  | _ :: _ :: _ => simp [oneScalar, Except.isOk, Except.toBool]

theorem isOk_oneString (values : List Value) :
    (c.oneString values).isOk =
      (values.length == 1 && values.all fun value => value.string?.isSome) := by
  match values with
  | [] => rfl
  | [value] => cases h : value.string? <;> simp [oneString, h, Except.isOk, Except.toBool]
  | _ :: _ :: _ => simp [oneString, Except.isOk, Except.toBool]

theorem isOk_twoScalars (values : List Value) :
    (c.twoScalars values).isOk = (values.length == 2 && values.all Value.isScalar) := by
  match values with
  | [] => rfl
  | [_] => rfl
  | [low, high] =>
    have hboth : (c.twoScalars [low, high]).isOk = ((c.scalar low).isOk && (c.scalar high).isOk) := by
      rw [twoScalars]
      cases c.scalar low with
      | error e => rfl
      | ok x => exact isOk_bind_pure _ _
    rw [hboth, isOk_scalar, isOk_scalar]
    simp
  | _ :: _ :: _ :: _ => simp [twoScalars, Except.isOk, Except.toBool]

theorem isOk_someScalars (values : List Value) :
    (c.someScalars values).isOk = (values.length != 0 && values.all Value.isScalar) := by
  cases values with
  | nil => rfl
  | cons first rest =>
    rw [Bool.eq_iff_iff, isOk_iff, Bool.and_eq_true, List.all_eq_true]
    constructor
    · rintro ⟨xs, hxs⟩
      obtain ⟨rfl, hscalars⟩ := eq_of_someScalars_eq_ok hxs
      exact ⟨rfl, hscalars⟩
    · rintro ⟨-, hscalars⟩
      exact ⟨_, someScalars_eq_ok (List.cons_ne_nil first rest) hscalars⟩

theorem isOk_noValues (values : List Value) : (c.noValues values).isOk = (values.length == 0) := by
  cases values with
  | nil => rfl
  | cons _ _ => simp [noValues, Except.isOk, Except.toBool]

theorem isOk_primitiveOf (values : List Value) :
    (c.primitiveOf values).isOk = c.operator.accepts values := by
  unfold primitiveOf
  cases c.operator with
  | eq | ne | gt | ge | lt | le => exact (isOk_bind_pure _ _).trans (c.isOk_oneScalar values)
  | between | notBetween => exact (isOk_bind_pure _ _).trans (c.isOk_twoScalars values)
  | like | notLike | geoIntersects => exact (isOk_bind_pure _ _).trans (c.isOk_oneString values)
  | isIn | notIn => exact (isOk_bind_pure _ _).trans (c.isOk_someScalars values)
  | isNull | isNotNull => exact (isOk_bind_pure _ _).trans (c.isOk_noValues values)

theorem literals_eq_ok_iff {values : List Value} :
    c.literals = .ok values ↔ c.operands.mapM Operand.literal? = some values := by
  rw [literals, mapM_eq_ok_iff, mapM_eq_some_iff]
  constructor
  · refine List.Forall₂.imp fun operand value h => ?_
    cases operand with
    | literal held => cases h; rfl
    | field name => cases h
  · refine List.Forall₂.imp fun operand value h => ?_
    cases operand with
    | literal held => cases h; rfl
    | field name => cases h

/-! ## Conditions and predicates -/

/-- A condition has a query exactly when it is well-formed. -/
theorem isOk_query : c.query.isOk = c.isWellFormed := by
  rw [query, isOk_bind_pure, primitive, isWellFormed]
  by_cases hfield : c.field = ""
  · rw [if_pos hfield, hfield]
    rfl
  · rw [if_neg hfield, bne_iff_ne.2 hfield, Bool.true_and]
    cases hvalues : c.operands.mapM Operand.literal? with
    | none =>
      cases hliterals : c.literals with
      | error e => rfl
      | ok values =>
        rw [c.literals_eq_ok_iff.1 hliterals] at hvalues
        cases hvalues
    | some values =>
      rw [c.literals_eq_ok_iff.2 hvalues, ok_bind, isOk_primitiveOf]
      rfl

/-- The error of a condition that is not well-formed names its field. -/
theorem exists_query_eq_error (h : c.isWellFormed = false) :
    ∃ fault, c.query = .error (.malformedPredicate c.field fault) := by
  rw [← isOk_query] at h
  cases hquery : c.query with
  | ok query => rw [hquery] at h; cases h
  | error e =>
    obtain ⟨fault, rfl, -⟩ := c.errorsIn_query e hquery
    exact ⟨fault, rfl⟩

end Condition

namespace Predicate

/-- A predicate has clauses, in filter mode or not, exactly when all of its conditions are well-formed. Else
compiling it fails as its first condition that is not well-formed does, for the field of this condition. -/
theorem isOk_compile_iff_isWellFormed (p : Predicate) (filterMode : Bool) :
    ((p.compile filterMode).isOk = true ↔ ∀ c ∈ p.conditions, c.isWellFormed = true) ∧
      ∀ c, p.conditions.find? (fun c => !c.isWellFormed) = some c →
        ∃ fault, c.query = .error (.malformedPredicate c.field fault) ∧
          p.compile filterMode = .error (.malformedPredicate c.field fault) := by
  constructor
  · rw [isOk_compile, isOk_query_eq_all, List.all_eq_true]
    simp only [Condition.isOk_query]
  · intro c hfirst
    obtain ⟨hbad, before, after, hconditions, hbefore⟩ := List.find?_eq_some_iff_append.1 hfirst
    obtain ⟨fault, hfault⟩ := c.exists_query_eq_error (Bool.not_eq_true' _ ▸ hbad)
    refine ⟨fault, hfault, errorOf?_eq_some.1 ?_⟩
    -- The conditions before the first bad one have queries, so that none of them is reported.
    have hnone : before.findSome? (fun d => errorOf? d.query) = none := by
      refine List.findSome?_eq_none_iff.2 fun d hd => ?_
      have hok : d.query.isOk = true := d.isOk_query.trans (by simpa using hbefore d hd)
      rwa [isOk_eq_isNone_errorOf?, Option.isNone_iff_eq_none] at hok
    rw [errorOf?_compile, hconditions, List.findSome?_append, hnone, Option.none_or,
      List.findSome?_cons, hfault]
    rfl

namespace Sample

/-- Alternatives within a group of one child. The second one has an array for a bound, and the third one
nothing to choose from. -/
def badAlternatives : Predicate :=
  .group .any [.group .all [
    .leaf ((Condition.eq "lines.sku" (.str "x")).nested "lines").orLeaf,
    .group .any [.leaf (.between "price" (.num (.ofUInt64 1)) (.ofJson (.arr [])))],
    .leaf (Condition.isIn "state" []).orLeaf]]

end Sample

/-- The error is about the bound, not about the choice. -/
theorem isOk_compile_iff_isWellFormed_sample :
    ∃ c, Sample.badAlternatives.conditions.find? (fun c => !c.isWellFormed) = some c ∧
      c.field = "price" ∧
      ∃ fault, Sample.badAlternatives.compile true = .error (.malformedPredicate "price" fault) := by
  have hfirst : Sample.badAlternatives.conditions.find? (fun c => !c.isWellFormed) =
      some (.between "price" (.num (.ofUInt64 1)) (.ofJson (.arr []))) := rfl
  obtain ⟨fault, -, hcompile⟩ :=
    (isOk_compile_iff_isWellFormed Sample.badAlternatives true).2 _ hfirst
  exact ⟨_, hfirst, rfl, fault, hcompile⟩

end Predicate

end SearchJoin
