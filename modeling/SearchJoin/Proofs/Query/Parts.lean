import SearchJoin.Proofs.Query.Condition
import SearchJoin.Proofs.Query.Faults

/-!
# What a compiled query is made of

Compiling a predicate combines the queries of its conditions with `bool` queries. Nothing gets lost and
nothing is repeated, and a scope stands around the query of its own condition and nowhere else.

Main statement: `Predicate.exists_parts_of_compile_eq_ok`.
-/

namespace SearchJoin

namespace Query

mutual

/-- The queries within a query, itself included, that are no `bool` queries. -/
def parts : Query → List Query
  | .bool must should mustNot filter =>
    partsOf must ++ partsOf should ++ partsOf mustNot ++ partsOf filter
  | .nested path query => .nested path query :: parts query
  | .hasChild childType query => .hasChild childType query :: parts query
  | query => [query]

/-- The parts of several queries. -/
def partsOf : List Query → List Query
  | [] => []
  | query :: queries => parts query ++ partsOf queries

end

/-- The query tests a field. -/
def isFieldTest : Query → Bool
  | .term _ _ | .terms _ _ | .range _ _ | .wildcard _ _ | .exists _ | .geoShape _ _ _ => true
  | .bool _ _ _ _ | .nested _ _ | .hasChild _ _ | .matchAll => false

/-- The query looks into a scope. -/
def isScope : Query → Bool
  | .nested _ _ | .hasChild _ _ => true
  | _ => false

/-- The queries within a query that test a field. -/
def fieldTests (query : Query) : List Query := query.parts.filter isFieldTest

/-- The queries within a query that look into a scope. -/
def scopes (query : Query) : List Query := query.parts.filter isScope

theorem partsOf_eq_flatMap (queries : List Query) : partsOf queries = queries.flatMap parts := by
  induction queries with
  | nil => rfl
  | cons query queries ih => rw [partsOf, ih, List.flatMap_cons]

theorem parts_bool (must should mustNot filter : List Query) :
    (bool must should mustNot filter).parts =
      (must ++ should ++ mustNot ++ filter).flatMap parts := by
  simp only [parts, partsOf_eq_flatMap, List.flatMap_append]

theorem parts_negate (query : Query) : query.negate.parts = query.parts := by
  simp [negate, parts_bool]

end Query

/-! ## Conditions -/

namespace Condition

variable {c : Condition} {primitive : Query}

/-- The query of a condition without its scope is a single test of a field, which may be negated. -/
theorem exists_fieldTest_of_primitiveOf_eq_ok {values : List Value}
    (h : c.primitiveOf values = .ok primitive) :
    ∃ test, primitive.parts = [test] ∧ test.isFieldTest = true := by
  unfold primitiveOf at h
  cases hop : c.operator with
  | eq | gt | ge | lt | le | between | like | isIn | isNotNull | geoIntersects =>
    simp only [hop] at h
    obtain ⟨_, -, hquery⟩ := bind_eq_ok.1 h
    rw [← pure_eq_ok.1 hquery]
    exact ⟨_, rfl, rfl⟩
  | ne | notBetween | notLike | notIn | isNull =>
    simp only [hop] at h
    obtain ⟨_, -, hquery⟩ := bind_eq_ok.1 h
    rw [← pure_eq_ok.1 hquery, Query.parts_negate]
    exact ⟨_, rfl, rfl⟩

theorem scopes_of_primitive_eq_ok (h : c.primitive = .ok primitive) : primitive.scopes = [] := by
  unfold Condition.primitive at h
  split at h
  · cases h
  · obtain ⟨values, -, hof⟩ := bind_eq_ok.1 h
    obtain ⟨test, hparts, htest⟩ := exists_fieldTest_of_primitiveOf_eq_ok hof
    rw [Query.scopes, hparts]
    cases test <;> simp_all [Query.isFieldTest, Query.isScope]

end Condition

namespace Scope

theorem fieldTests_wrap (scope : Scope) (query : Query) :
    (scope.wrap query).fieldTests = query.fieldTests := by
  cases scope <;> rfl

theorem scopes_wrap (scope : Scope) {query : Query} (h : query.scopes = []) :
    (scope.wrap query).scopes = if scope = .document then [] else [scope.wrap query] := by
  cases scope with
  | document => exact h
  | nested path => exact congrArg _ h
  | child childType => exact congrArg _ h

/-- Of queries without a scope that are wrapped, those of scoped conditions have one. -/
theorem flatMap_scopes_wrap {each : List (Condition × Query)} (h : ∀ own ∈ each, own.2.scopes = []) :
    (each.flatMap fun own => (own.1.scope.wrap own.2).scopes) =
      (each.filter fun own => own.1.scope ≠ .document).map fun own => own.1.scope.wrap own.2 := by
  induction each with
  | nil => rfl
  | cons own each ih =>
    obtain ⟨hown, heach⟩ := List.forall_mem_cons.1 h
    rw [List.flatMap_cons, ih heach, scopes_wrap own.1.scope hown]
    by_cases hscope : own.1.scope = .document <;> simp [hscope]

end Scope

/-! ## Predicates -/

/-- These are the parts of the conditions' queries, in any order. -/
def Condition.HaveParts (conditions : List Condition) (parts : List Query) : Prop :=
  ∃ each : List (Condition × Query), each.map Prod.fst = conditions ∧
    (∀ own ∈ each, own.1.primitive = .ok own.2) ∧
    parts.Perm (each.flatMap fun own => (own.1.scope.wrap own.2).parts)

namespace Condition.HaveParts

variable {conditions others : List Condition} {parts otherParts : List Query}

theorem nil : HaveParts [] [] := ⟨[], rfl, List.forall_mem_nil _, .nil⟩

theorem singleton {c : Condition} {query : Query} (h : c.query = .ok query) :
    HaveParts [c] query.parts := by
  obtain ⟨primitive, hprimitive, hquery⟩ := bind_eq_ok.1 h
  refine ⟨[(c, primitive)], rfl, List.forall_mem_singleton.2 hprimitive, ?_⟩
  rw [← pure_eq_ok.1 hquery, List.flatMap_singleton]

theorem append (h : HaveParts conditions parts) (hother : HaveParts others otherParts) :
    HaveParts (conditions ++ others) (parts ++ otherParts) := by
  obtain ⟨each, rfl, hprimitives, hperm⟩ := h
  obtain ⟨otherEach, rfl, hotherPrimitives, hotherPerm⟩ := hother
  refine ⟨each ++ otherEach, List.map_append, ?_, ?_⟩
  · exact List.forall_mem_append.2 ⟨hprimitives, hotherPrimitives⟩
  · rw [List.flatMap_append]
    exact hperm.append hotherPerm

theorem of_perm (h : HaveParts conditions parts) (hperm : otherParts.Perm parts) :
    HaveParts conditions otherParts := by
  obtain ⟨each, hconditions, hprimitives, hparts⟩ := h
  exact ⟨each, hconditions, hprimitives, hperm.trans hparts⟩

end Condition.HaveParts

namespace Clauses

theorem parts_toQuery (clauses : Clauses) : clauses.toQuery.parts =
    (clauses.must ++ clauses.should ++ clauses.mustNot ++ clauses.filter).flatMap Query.parts :=
  Query.parts_bool _ _ _ _

/-- Each query becomes a clause, of one kind or the other. -/
theorem parts_ofConnected_perm (queries : List (Connector × Query)) :
    (ofConnected queries).toQuery.parts.Perm (queries.flatMap fun query => query.2.parts) := by
  have hany : (queries.filter fun query => query.1 == .any) =
      queries.filter fun query => !(query.1 == .all) := by
    refine List.filter_congr fun query _ => ?_
    cases query.1 <;> rfl
  have hclauses : (ofConnected queries).toQuery.parts =
      ((queries.filter fun query => query.1 == .all) ++
        queries.filter fun query => !(query.1 == .all)).flatMap fun query => query.2.parts := by
    rw [parts_toQuery, ofConnected, hany, List.append_nil, List.append_nil, ← List.map_append,
      List.flatMap_map]
  rw [hclauses]
  exact (List.filter_append_perm _ queries).flatMap_right _

end Clauses

namespace Predicate

open Condition (HaveParts)

mutual

/-- The query of a predicate has the parts of the queries of its conditions. -/
theorem haveParts_query : (p : Predicate) → {query : Query} → p.query = .ok query →
    HaveParts p.conditions query.parts
  | .leaf condition, query, h => by
    rw [Predicate.query] at h
    exact .singleton h
  | .group _ children, query, h => by
    rw [Predicate.query] at h
    obtain ⟨queries, hqueries, h⟩ := bind_eq_ok.1 h
    rw [← pure_eq_ok.1 h]
    exact (haveParts_queries children hqueries).of_perm (Clauses.parts_ofConnected_perm queries)

theorem haveParts_queries : (children : List Predicate) → {queries : List (Connector × Query)} →
    Predicate.queries children = .ok queries →
    HaveParts (conditionsOf children) (queries.flatMap fun query => query.2.parts)
  | [], queries, h => by
    cases h
    exact .nil
  | child :: children, queries, h => by
    rw [Predicate.queries] at h
    obtain ⟨head, hhead, h⟩ := bind_eq_ok.1 h
    obtain ⟨rest, hrest, h⟩ := bind_eq_ok.1 h
    rw [← pure_eq_ok.1 h, List.flatMap_cons, conditionsOf]
    exact (haveParts_query child hhead).append (haveParts_queries children hrest)

end

theorem haveParts_compile {p : Predicate} {filterMode : Bool} {clauses : Clauses}
    (h : p.compile filterMode = .ok clauses) : HaveParts p.conditions clauses.toQuery.parts := by
  obtain ⟨scoring, hscoring, h⟩ := bind_eq_ok.1 h
  have hparts : HaveParts p.conditions scoring.toQuery.parts := by
    -- The groups of one child around the root have the conditions of what is in them.
    rw [← conditions_unwrapSingle]
    unfold scoringClauses at hscoring
    cases hroot : p.unwrapSingle with
    | leaf condition =>
      rw [hroot] at hscoring
      obtain ⟨query, hquery, hscoring⟩ := bind_eq_ok.1 hscoring
      rw [← pure_eq_ok.1 hscoring]
      refine (HaveParts.singleton hquery).of_perm ?_
      simpa using Clauses.parts_ofConnected_perm [(condition.connector, query)]
    | group connector children =>
      rw [hroot] at hscoring
      obtain ⟨queries, hqueries, hscoring⟩ := bind_eq_ok.1 hscoring
      rw [← pure_eq_ok.1 hscoring]
      exact (haveParts_queries children hqueries).of_perm (Clauses.parts_ofConnected_perm queries)
  cases filterMode with
  | false => rwa [← pure_eq_ok.1 h]
  | true =>
    rw [← pure_eq_ok.1 h, Clauses.parts_toQuery]
    simpa using hparts

/-- The clauses of a predicate, in filter mode or not, are made from the queries of its conditions, each of
them once: they test fields as often and in the same way as these, and have a scope for each condition that
has one, which holds the query of this condition. No scope stands within another. -/
theorem exists_parts_of_compile_eq_ok {p : Predicate} {filterMode : Bool} {clauses : Clauses}
    (h : p.compile filterMode = .ok clauses) :
    ∃ each : List (Condition × Query), each.map Prod.fst = p.conditions ∧
      (∀ own ∈ each, own.1.primitive = .ok own.2) ∧
      clauses.toQuery.fieldTests.Perm (each.flatMap fun own => own.2.fieldTests) ∧
      clauses.toQuery.scopes.Perm ((each.filter fun own => own.1.scope ≠ .document).map fun own =>
        own.1.scope.wrap own.2) ∧
      ∀ node ∈ clauses.toQuery.scopes, node.scopes = [node] := by
  obtain ⟨each, hconditions, hprimitives, hparts⟩ := haveParts_compile h
  have hunscoped : ∀ own ∈ each, own.2.scopes = [] := fun own hown =>
    Condition.scopes_of_primitive_eq_ok (hprimitives own hown)
  have hscopes : clauses.toQuery.scopes.Perm
      ((each.filter fun own => own.1.scope ≠ .document).map fun own => own.1.scope.wrap own.2) := by
    rw [← Scope.flatMap_scopes_wrap hunscoped]
    refine (hparts.filter Query.isScope).trans (.of_eq ?_)
    exact List.filter_flatMap
  refine ⟨each, hconditions, hprimitives, ?_, hscopes, fun node hnode => ?_⟩
  · refine (hparts.filter Query.isFieldTest).trans (.of_eq ?_)
    rw [List.filter_flatMap]
    exact List.flatMap_congr fun own _ => own.1.scope.fieldTests_wrap own.2
  · obtain ⟨own, hown, rfl⟩ := List.mem_map.1 (hscopes.mem_iff.1 hnode)
    obtain ⟨hmem, hscope⟩ := List.mem_filter.1 hown
    rw [Scope.scopes_wrap _ (hunscoped own hmem), if_neg (of_decide_eq_true hscope)]

namespace Sample

/-- Orders with a line of one of two kinds, or that have a shipment which is not lost, and that are not
shipped. -/
def ordersByParts : Predicate :=
  .group .all [.group .all [
    .group .all [
      .leaf ((Condition.eq "lines.sku" (.str "x")).nested "lines").orLeaf,
      .leaf ((Condition.eq "lines.sku" (.str "y")).nested "lines").orLeaf,
      .leaf ((Condition.compare "state" .ne (.str "lost")).child "shipment").orLeaf],
    .leaf (.isNull "shipped")]]

end Sample

/-- Each of three alternatives has a scope of its own, and the group of them has none. -/
theorem exists_parts_of_compile_eq_ok_sample :
    ∃ clauses, Sample.ordersByParts.compile true = .ok clauses ∧
      clauses.toQuery.fieldTests.length = 4 ∧ clauses.toQuery.scopes.length = 3 ∧
      (∀ node ∈ clauses.toQuery.scopes, node.scopes = [node]) ∧
      ∃ each : List (Condition × Query), each.map Prod.fst = Sample.ordersByParts.conditions ∧
        clauses.toQuery.scopes.Perm
          ((each.filter fun own => own.1.scope ≠ .document).map fun own =>
            own.1.scope.wrap own.2) := by
  have hcompile : Sample.ordersByParts.compile true = .ok _ := rfl
  obtain ⟨each, hconditions, -, -, hscopes, hinner⟩ := exists_parts_of_compile_eq_ok hcompile
  exact ⟨_, hcompile, rfl, rfl, hinner, each, hconditions, hscopes⟩

end Predicate

end SearchJoin
