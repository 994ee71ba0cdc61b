import SearchJoin.Proofs.Join.Requests
import SearchJoin.Proofs.Query.Compiles

/-!
# What a sub-query is made of

The sub-query for a row of the first table joins up to three kinds of parts: the own filter of the second
table, the conditions of the `ON` clause bound to the row, and what the row leaves of the predicate over
both tables. Put together they are compiled as one predicate, whose root is opened when there is one part
alone. What the sub-query selects is still what all of the parts select that are compiled by themselves.

Main statement: `NestedLoop.exists_parts_of_subRequest`.
-/

namespace SearchJoin

/-- A predicate that has a query has clauses. -/
theorem Predicate.exists_compile_of_query {p : Predicate} {query : Query} (h : p.query = .ok query)
    (filterMode : Bool) : ∃ clauses, p.compile filterMode = .ok clauses := by
  rw [← isOk_iff, isOk_compile, isOk_iff]
  exact ⟨query, h⟩

namespace NestedLoop

variable {join : Join} {row : Document}

/-- What the predicate over both tables adds to a sub-query: nothing when there is none or the row makes it
true, and else the clauses of what the row leaves of it. -/
inductive FilterClauses (join : Join) (row : Document) (filterMode : Bool) :
    Option Predicate → Option Clauses → Prop where
  /-- There is no predicate. -/
  | missing : FilterClauses join row filterMode none none
  /-- The row decides that the predicate holds. -/
  | holds {filter : Predicate} (hbound : join.bind row filter = .ok (.constant true)) :
    FilterClauses join row filterMode (some filter) none
  /-- The row leaves a predicate over the second table. -/
  | left {filter p : Predicate} {clauses : Clauses} (hbound : join.bind row filter = .ok (.left p))
    (hclauses : p.compile filterMode = .ok clauses) :
    FilterClauses join row filterMode (some filter) (some clauses)

/-- The parts of the sub-query for a row, each compiled by itself. -/
structure SubQueryParts (join : Join) (row : Document) (filterMode : Bool) where
  /-- The clauses of the second table's own filter, if it has one. -/
  own : Option Clauses
  /-- The queries of the conditions of the `ON` clause. -/
  conditions : List Query
  /-- The clauses of what is left of the predicate over both tables, if something is. -/
  rest : Option Clauses
  /-- The own filter is compiled as it stands. -/
  own_eq : join.second.filter.mapM (fun filter => filter.compile filterMode) = .ok own
  /-- Each condition is bound to the row. -/
  conditions_eq : List.Forall₂ (fun c query => ∃ bound,
    join.bindConnected c row = .ok (some bound) ∧ bound.query = .ok query) join.conditions conditions
  /-- The predicate over both tables is bound to the row. -/
  rest_eq : FilterClauses join row filterMode join.filter rest

/-- All parts select. -/
def SubQueryParts.Select {filterMode : Bool} (parts : SubQueryParts join row filterMode)
    (leaf : Query → Bool) : Prop :=
  (∀ clauses ∈ parts.own, clauses.toQuery.selects leaf = true) ∧
    (∀ query ∈ parts.conditions, query.selects leaf = true) ∧
    ∀ clauses ∈ parts.rest, clauses.toQuery.selects leaf = true

/-! ## The predicates that are put together -/

theorem exists_of_boundConditions_eq_some {conditions : List Condition} {predicates : List Predicate}
    (h : boundConditions join row conditions = .ok (some predicates)) :
    ∃ bounds : List Condition, predicates = bounds.map .leaf ∧
      List.Forall₂ (fun c bound => join.bindConnected c row = .ok (some bound)) conditions bounds := by
  induction conditions generalizing predicates with
  | nil => cases h; exact ⟨[], rfl, .nil⟩
  | cons c conditions ih =>
    rw [boundConditions] at h
    obtain ⟨bound, hbound, h⟩ := bind_eq_ok.1 h
    cases bound with
    | none => cases h
    | some bound =>
      obtain ⟨rest, hrest, h⟩ := bind_eq_ok.1 h
      cases rest with
      | none => cases h
      | some rest =>
        obtain ⟨bounds, rfl, hbounds⟩ := ih hrest
        cases h
        exact ⟨bound :: bounds, rfl, .cons hbound hbounds⟩

/-- What the predicate over both tables adds to a sub-query is compiled when it has a query. -/
theorem exists_filterClauses {predicates : List Predicate}
    (h : boundFilter join row = .ok (some predicates))
    (hqueries : ∀ p ∈ predicates, ∃ query, p.query = .ok query) (filterMode : Bool) :
    ∃ rest, FilterClauses join row filterMode join.filter rest ∧ ∀ leaf,
      (predicates.all (Predicate.selected leaf) = true ↔
        ∀ clauses ∈ rest, clauses.toQuery.selects leaf = true) := by
  unfold boundFilter at h
  cases hfilter : join.filter with
  | none =>
    rw [hfilter] at h
    cases h
    exact ⟨none, .missing, fun leaf => by simp⟩
  | some filter =>
    rw [hfilter] at h
    obtain ⟨bound, hbound, h⟩ := bind_eq_ok.1 h
    match bound with
    | .constant false => cases h
    | .constant true =>
      cases h
      exact ⟨none, .holds hbound, fun leaf => by simp⟩
    | .left p =>
      cases h
      obtain ⟨query, hquery⟩ := hqueries p List.mem_cons_self
      obtain ⟨clauses, hclauses⟩ := Predicate.exists_compile_of_query hquery filterMode
      refine ⟨some clauses, .left hbound hclauses, fun leaf => ?_⟩
      rw [List.all_cons, List.all_nil, Bool.and_true, ← Predicate.selects_compile hclauses]
      simp

/-- The own filter of the second table is compiled when it has a query. -/
theorem exists_ownClauses {filter : Option Predicate}
    (hqueries : ∀ p ∈ filter.toList, ∃ query, p.query = .ok query) (filterMode : Bool) :
    ∃ own, filter.mapM (fun filter => filter.compile filterMode) = .ok own ∧ ∀ leaf,
      (filter.toList.all (Predicate.selected leaf) = true ↔
        ∀ clauses ∈ own, clauses.toQuery.selects leaf = true) := by
  cases filter with
  | none => exact ⟨none, rfl, fun leaf => by simp⟩
  | some filter =>
    obtain ⟨query, hquery⟩ := hqueries filter List.mem_cons_self
    obtain ⟨clauses, hclauses⟩ := Predicate.exists_compile_of_query hquery filterMode
    refine ⟨some clauses, ?_, fun leaf => ?_⟩
    · rw [Option.mapM_some, hclauses]
      rfl
    · rw [Option.toList_some, List.all_cons, List.all_nil, Bool.and_true,
        ← Predicate.selects_compile hclauses]
      simp

/-- The bound conditions select by their own queries. -/
theorem exists_conditionQueries {conditions bounds : List Condition}
    (hbounds : List.Forall₂ (fun c bound => join.bindConnected c row = .ok (some bound)) conditions
      bounds)
    (hqueries : ∀ p ∈ bounds.map Predicate.leaf, ∃ query, p.query = .ok query) :
    ∃ queries, List.Forall₂ (fun c query => ∃ bound,
        join.bindConnected c row = .ok (some bound) ∧ bound.query = .ok query) conditions queries ∧
      ∀ leaf, ((bounds.map Predicate.leaf).all (Predicate.selected leaf) = true ↔
        ∀ query ∈ queries, query.selects leaf = true) := by
  induction hbounds with
  | nil => exact ⟨[], .nil, fun leaf => by simp⟩
  | @cons c bound _ _ hbound _ ih =>
    obtain ⟨⟨query, hquery⟩, hqueries⟩ := List.forall_mem_cons.1 hqueries
    obtain ⟨queries, heach, hselect⟩ := ih hqueries
    refine ⟨query :: queries, .cons ⟨bound, hbound, hquery⟩ heach, fun leaf => ?_⟩
    rw [List.map_cons, List.all_cons, Bool.and_eq_true, hselect, List.forall_mem_cons,
      Predicate.selected_of_query_eq_ok hquery]

variable {plan : NestedLoop} {request : Request}

/-- The predicates that a sub-query is compiled from. -/
theorem exists_of_subRequest_eq_some (h : plan.subRequest row = .ok (some request)) :
    ∃ (bounds : List Condition) (rest : List Predicate) (clauses : Clauses),
      List.Forall₂ (fun c bound => plan.join.bindConnected c row = .ok (some bound))
        plan.join.conditions bounds ∧
      boundFilter plan.join row = .ok (some rest) ∧
      subClauses (plan.join.second.filter.toList ++ bounds.map .leaf ++ rest) = .ok clauses ∧
      request.query = clauses.toQuery := by
  obtain ⟨predicates, hpredicates, h⟩ := bind_eq_ok.1 h
  obtain ⟨conditions, hconditions, hpredicates⟩ := bind_eq_ok.1 hpredicates
  cases conditions with
  | none => cases hpredicates; cases h
  | some conditions =>
    obtain ⟨rest, hrest, hpredicates⟩ := bind_eq_ok.1 hpredicates
    cases rest with
    | none => cases hpredicates; cases h
    | some rest =>
      obtain ⟨bounds, rfl, hbounds⟩ := exists_of_boundConditions_eq_some hconditions
      cases hpredicates
      obtain ⟨clauses, hclauses, h⟩ := bind_eq_ok.1 h
      cases h
      exact ⟨bounds, rest, clauses, hbounds, hrest, hclauses, rfl⟩

/-- The sub-query for a row selects what all of its parts select, each compiled by itself in either mode:
the own filter of the second table, every condition of the `ON` clause bound to the row, and the predicate
over both tables bound to the row, unless that makes it true. -/
theorem exists_parts_of_subRequest (h : plan.subRequest row = .ok (some request)) (filterMode : Bool) :
    ∃ parts : SubQueryParts plan.join row filterMode,
      ∀ leaf, request.query.selects leaf = true ↔ parts.Select leaf := by
  obtain ⟨bounds, rest, clauses, hbounds, hrest, hclauses, hquery⟩ := exists_of_subRequest_eq_some h
  obtain ⟨hqueries, hselects⟩ := selects_subClauses hclauses
  rw [List.forall_mem_append, List.forall_mem_append] at hqueries
  obtain ⟨⟨hown, hon⟩, hleft⟩ := hqueries
  obtain ⟨own, howneq, hownselects⟩ := exists_ownClauses hown filterMode
  obtain ⟨conditions, hconditions, honselects⟩ := exists_conditionQueries hbounds hon
  obtain ⟨left, hlefteq, hleftselects⟩ := exists_filterClauses hrest hleft filterMode
  refine ⟨⟨own, conditions, left, howneq, hconditions, hlefteq⟩, fun leaf => ?_⟩
  rw [hquery, hselects, List.all_append, List.all_append, Bool.and_eq_true, Bool.and_eq_true,
    hownselects, honselects, hleftselects, and_assoc]
  rfl

namespace Sample

/-- Orders and the offers for their item in their colour; an offer is open, or it is kept. -/
def offers : NestedLoop where
  join := {
    first := ⟨"o", "orders", [], none, .empty⟩
    second := ⟨"f", "offers", [], some ((Predicate.or [.leaf (.eq "state" (.str "open")),
      .leaf (.eq "state" (.str "kept"))]).withConnector .any), .empty⟩
    conditions := [.fields "o.item" .eq "f.item"]
    filter := some (.leaf (Condition.fields "f.colour" .eq "o.colour").orLeaf)
    hints := []
    limit := none }
  options := ⟨100, 2, 1000, 1000, .first, none⟩

/-- An order of a red pen. -/
def redPen : Document := ⟨"", "orders", .ofList [("colour", .str "red"), ("item", .str "pen")]⟩

end Sample

/-- The alternatives of the own filter do not take in the other parts. -/
theorem exists_parts_of_subRequest_sample :
    ∃ request, Sample.offers.subRequest Sample.redPen = .ok (some request) ∧
      ∀ leaf, request.query.selects leaf = true ↔
        (leaf (.term "state" (.str "open")) = true ∨ leaf (.term "state" (.str "kept")) = true) ∧
          leaf (.term "item" (.str "pen")) = true ∧ leaf (.term "colour" (.str "red")) = true := by
  have h : Sample.offers.subRequest Sample.redPen = .ok (some _) := rfl
  obtain ⟨parts, hselect⟩ := exists_parts_of_subRequest h false
  have hown : parts.own =
      some { should := [.term "state" (.str "open"), .term "state" (.str "kept")] } :=
    Except.ok.inj (parts.own_eq.symm.trans rfl)
  have hconditions : parts.conditions = [.term "item" (.str "pen")] := by
    obtain ⟨own, conditions, rest, -, heach, -⟩ := parts
    obtain _ | ⟨⟨bound, hbound, hquery⟩, _ | _⟩ := heach
    cases hbound
    exact congrArg (· :: []) (Except.ok.inj (hquery.symm.trans rfl))
  have hrest : parts.rest = some { should := [.term "colour" (.str "red")] } := by
    obtain ⟨own, conditions, rest, -, -, hrest⟩ := parts
    cases hrest with
    | holds hbound => cases hbound
    | left hbound hclauses =>
      cases hbound
      exact congrArg some (Except.ok.inj (hclauses.symm.trans rfl))
  refine ⟨_, h, fun leaf => (hselect leaf).trans ?_⟩
  simp [SubQueryParts.Select, hown, hconditions, hrest, Clauses.toQuery, Query.selects, Query.allSelect,
    Query.anySelects]

end NestedLoop

end SearchJoin
