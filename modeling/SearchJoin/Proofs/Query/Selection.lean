import SearchJoin.Proofs.Predicate.Truth
import SearchJoin.Query.Compile

/-!
# Which documents a query selects

A `bool` query selects by its clauses, and every other query by a test that is left open. Compiling a
predicate gives a query that selects by the truth of the predicate, taking each condition for what the
query of the condition selects.

Main statements: `Predicate.selects_query`, `Predicate.exists_query_of_compile_eq_ok`.
-/

namespace SearchJoin

namespace Query

mutual

/-- What a query selects, from a test for queries other than `bool` queries. Alternatives count where
there are some and no clause has to match. -/
def selects (leaf : Query → Bool) : Query → Bool
  | .bool must should mustNot filter =>
    allSelect leaf must && allSelect leaf filter && !anySelects leaf mustNot &&
      (should.isEmpty || !must.isEmpty || !filter.isEmpty || anySelects leaf should)
  | .matchAll => true
  | query => leaf query

/-- Every query selects. -/
def allSelect (leaf : Query → Bool) : List Query → Bool
  | [] => true
  | query :: queries => selects leaf query && allSelect leaf queries

/-- Some query selects. -/
def anySelects (leaf : Query → Bool) : List Query → Bool
  | [] => false
  | query :: queries => selects leaf query || anySelects leaf queries

end

variable {leaf : Query → Bool}

theorem allSelect_eq (queries : List Query) :
    allSelect leaf queries = queries.all (selects leaf) := by
  induction queries with
  | nil => rfl
  | cons query queries ih => rw [allSelect, ih, List.all_cons]

theorem anySelects_eq (queries : List Query) :
    anySelects leaf queries = queries.any (selects leaf) := by
  induction queries with
  | nil => rfl
  | cons query queries ih => rw [anySelects, ih, List.any_cons]

/-- The engine's rule for `bool` queries. -/
theorem selects_bool (must should mustNot filter : List Query) :
    selects leaf (.bool must should mustNot filter) =
      (must.all (selects leaf) && filter.all (selects leaf) && !mustNot.any (selects leaf) &&
        (should.isEmpty || !must.isEmpty || !filter.isEmpty || should.any (selects leaf))) := by
  rw [selects, allSelect_eq, allSelect_eq, anySelects_eq, anySelects_eq]

theorem selects_negate (query : Query) : selects leaf query.negate = !selects leaf query := by
  simp [negate, selects_bool]

end Query

namespace Clauses

variable {leaf : Query → Bool}

theorem selects_filter (queries : List Query) :
    (toQuery { filter := queries }).selects leaf = queries.all (Query.selects leaf) := by
  simp [toQuery, Query.selects_bool]

theorem selects_must (queries : List Query) :
    (toQuery { must := queries }).selects leaf = queries.all (Query.selects leaf) := by
  simp [toQuery, Query.selects_bool]

theorem ofConnected_all (queries : List Query) :
    ofConnected (queries.map (Prod.mk .all)) = { must := queries } := by
  simp [ofConnected, List.filter_map, Function.comp_def]

/-- The clauses of connected queries select by the rule for groups. -/
theorem selects_ofConnected (queries : List (Connector × Query)) :
    (ofConnected queries).toQuery.selects leaf =
      groupTruth (queries.map fun query => (query.1, query.2.selects leaf)) := by
  rw [ofConnected, toQuery, Query.selects_bool]
  unfold groupTruth
  by_cases hall : queries.any fun query => query.1 == .all
  · have hmust : (queries.filter fun query => query.1 == .all) ≠ [] := by
      obtain ⟨query, hmem, hquery⟩ := List.any_eq_true.1 hall
      exact List.ne_nil_of_mem (List.mem_filter.2 ⟨hmem, hquery⟩)
    have hrule : ∀ query : Connector × Query,
        (!(query.1 == .all) || query.2.selects leaf) =
          (query.1 == .any || query.2.selects leaf) := by
      intro query
      cases query.1 <;> rfl
    simp [hall, hmust, hrule, List.all_map, List.any_map, Function.comp_def]
  · have hany : ∀ query ∈ queries, query.1 = .any := by
      intro query hmem
      cases hquery : query.1 with
      | any => rfl
      | all => exact absurd (List.any_eq_true.2 ⟨query, hmem, by simp [hquery]⟩) hall
    have hmust : (queries.filter fun query => query.1 == .all) = [] :=
      List.filter_eq_nil_iff.2 fun query hmem => by simp [hany query hmem]
    have hshould : (queries.filter fun query => query.1 == .any) = queries :=
      List.filter_eq_self.2 fun query hmem => by simp [hany query hmem]
    simp [hall, hmust, hshould, List.any_map, Function.comp_def]

end Clauses

namespace Condition

/-- What the query of a condition selects; nothing when there is none. -/
def selected (leaf : Query → Bool) (c : Condition) : Bool :=
  match c.query with
  | .ok query => query.selects leaf
  | .error _ => false

end Condition

namespace Predicate

variable {leaf : Query → Bool}

mutual

/-- The query of a predicate selects by the truth of the predicate. -/
theorem selects_query : (p : Predicate) → {query : Query} → p.query = .ok query →
    query.selects leaf = p.truth (Condition.selected leaf)
  | .leaf condition, query, h => by
    rw [Predicate.query] at h
    rw [truth, Condition.selected, h]
  | .group _ children, query, h => by
    rw [Predicate.query] at h
    obtain ⟨queries, hqueries, h⟩ := bind_eq_ok.1 h
    rw [← pure_eq_ok.1 h, Clauses.selects_ofConnected, truth, selects_queries children hqueries]

theorem selects_queries : (children : List Predicate) → {queries : List (Connector × Query)} →
    Predicate.queries children = .ok queries →
    queries.map (fun query => (query.1, query.2.selects leaf)) =
      truths (Condition.selected leaf) children
  | [], queries, h => by
    cases h
    rfl
  | child :: children, queries, h => by
    rw [Predicate.queries] at h
    obtain ⟨head, hhead, h⟩ := bind_eq_ok.1 h
    obtain ⟨rest, hrest, h⟩ := bind_eq_ok.1 h
    rw [← pure_eq_ok.1 h, List.map_cons, truths, selects_query child hhead,
      selects_queries children hrest]

end

theorem query_withConnector (connector : Connector) (p : Predicate) :
    (p.withConnector connector).query = p.query := by
  cases p <;> rfl

theorem connector_withConnector (connector : Connector) (p : Predicate) :
    (p.withConnector connector).connector = connector := by
  cases p <;> rfl

mutual

/-- Every condition of a predicate that has a query has one itself. -/
theorem exists_query_of_mem_conditions : (p : Predicate) → {query : Query} →
    p.query = .ok query → ∀ c ∈ p.conditions, ∃ query, c.query = .ok query
  | .leaf condition, query, h => by
    intro c hc
    rw [conditions, List.mem_singleton] at hc
    rw [Predicate.query] at h
    exact ⟨query, hc ▸ h⟩
  | .group _ children, query, h => by
    rw [Predicate.query] at h
    obtain ⟨queries, hqueries, -⟩ := bind_eq_ok.1 h
    exact exists_query_of_mem_conditionsOf children hqueries

theorem exists_query_of_mem_conditionsOf : (children : List Predicate) →
    {queries : List (Connector × Query)} → Predicate.queries children = .ok queries →
    ∀ c ∈ conditionsOf children, ∃ query, c.query = .ok query
  | [], _, _ => by
    intro c hc
    cases hc
  | child :: children, queries, h => by
    rw [Predicate.queries] at h
    obtain ⟨head, hhead, h⟩ := bind_eq_ok.1 h
    obtain ⟨rest, hrest, -⟩ := bind_eq_ok.1 h
    intro c hc
    rw [conditionsOf] at hc
    rcases List.mem_append.1 hc with hc | hc
    · exact exists_query_of_mem_conditions child hhead c hc
    · exact exists_query_of_mem_conditionsOf children hrest c hc

end

/-- The clauses at the root select what the query of the predicate selects, also where groups of one
child are opened. -/
theorem exists_query_of_scoringClauses_eq_ok : (p : Predicate) → {clauses : Clauses} →
    p.scoringClauses = .ok clauses →
    ∃ query, p.query = .ok query ∧ ∀ leaf, clauses.toQuery.selects leaf = query.selects leaf
  | .leaf condition, clauses, h => by
    obtain ⟨query, hquery, h⟩ := bind_eq_ok.1 h
    refine ⟨query, hquery, fun leaf => ?_⟩
    rw [← pure_eq_ok.1 h, Clauses.selects_ofConnected]
    exact groupTruth_singleton _ _
  | .group connector [child], clauses, h => by
    have hchild : child.scoringClauses = .ok clauses := by
      rw [scoringClauses, unwrapSingle] at h
      exact h
    -- The query of the group has one layer more than its clauses.
    obtain ⟨query, hquery, hselects⟩ := exists_query_of_scoringClauses_eq_ok child hchild
    refine ⟨(Clauses.ofConnected [(child.connector, query)]).toQuery, ?_, fun leaf => ?_⟩
    · rw [Predicate.query, queries, hquery]
      rfl
    · rw [hselects leaf, Clauses.selects_ofConnected]
      exact (groupTruth_singleton _ _).symm
  | .group connector [], clauses, h => by
    exact ⟨clauses.toQuery, by cases h; rfl, fun _ => rfl⟩
  | .group connector (first :: second :: children), clauses, h => by
    obtain ⟨queries, hqueries, h⟩ := bind_eq_ok.1 h
    refine ⟨clauses.toQuery, ?_, fun _ => rfl⟩
    rw [Predicate.query, hqueries, ← pure_eq_ok.1 h]
    rfl

/-- The clauses of a predicate select what its query selects, in filter mode or not. -/
theorem exists_query_of_compile_eq_ok {p : Predicate} {filterMode : Bool} {clauses : Clauses}
    (h : p.compile filterMode = .ok clauses) :
    ∃ query, p.query = .ok query ∧ ∀ leaf, clauses.toQuery.selects leaf = query.selects leaf := by
  unfold compile at h
  obtain ⟨scoring, hscoring, h⟩ := bind_eq_ok.1 h
  obtain ⟨query, hquery, hselects⟩ := exists_query_of_scoringClauses_eq_ok p hscoring
  refine ⟨query, hquery, fun leaf => ?_⟩
  rw [← hselects leaf]
  cases filterMode with
  | false => rw [← pure_eq_ok.1 h]
  | true => rw [← pure_eq_ok.1 h, Clauses.selects_filter, List.all_cons, List.all_nil, Bool.and_true]

end Predicate

end SearchJoin
