import SearchJoin.Proofs.Join.Binding
import SearchJoin.Proofs.Join.KeyTable
import SearchJoin.Proofs.Query.Condition
import SearchJoin.Proofs.Query.Selection

/-!
# What the requests of a join select

Every request of a join selects what the own filter of its table does, and the requests that bring the
tables together select by their further clauses besides. In which shape the filter is compiled makes no
difference.

Main statements: `HashJoin.selects_probeRequest`, `NestedLoop.selects_subRequest`.
-/

namespace SearchJoin

variable {leaf : Query → Bool}

namespace Predicate

/-- What the query of a predicate selects; nothing when there is none. -/
def selected (leaf : Query → Bool) (p : Predicate) : Bool :=
  match p.query with
  | .ok query => query.selects leaf
  | .error _ => false

theorem selected_of_query_eq_ok {p : Predicate} {query : Query} (h : p.query = .ok query) :
    p.selected leaf = query.selects leaf := by
  rw [selected, h]

theorem selects_compile {p : Predicate} {filterMode : Bool} {clauses : Clauses}
    (h : p.compile filterMode = .ok clauses) : clauses.toQuery.selects leaf = p.selected leaf := by
  obtain ⟨query, hquery, hselects⟩ := exists_query_of_compile_eq_ok h
  rw [hselects leaf, selected_of_query_eq_ok hquery]

/-- The members of a conjunction have queries, which are all connected by `all`. -/
theorem exists_mapM_query_of_queries {predicates : List Predicate} {each : List (Connector × Query)}
    (h : queries (predicates.map (withConnector .all)) = .ok each) :
    ∃ members, predicates.mapM query = .ok members ∧ each = members.map (Prod.mk .all) := by
  induction predicates generalizing each with
  | nil => cases h; exact ⟨[], rfl, rfl⟩
  | cons p predicates ih =>
    rw [List.map_cons, queries, query_withConnector, connector_withConnector] at h
    obtain ⟨head, hhead, h⟩ := bind_eq_ok.1 h
    obtain ⟨rest, hrest, h⟩ := bind_eq_ok.1 h
    obtain ⟨members, hmembers, rfl⟩ := ih hrest
    refine ⟨head :: members, ?_, (pure_eq_ok.1 h).symm⟩
    exact mapM_eq_ok_iff.2 (.cons hhead (mapM_eq_ok_iff.1 hmembers))

theorem all_selects_of_mapM_query {predicates : List Predicate} {members : List Query}
    (h : predicates.mapM query = .ok members) :
    members.all (Query.selects leaf) = predicates.all (selected leaf) := by
  have heach := mapM_eq_ok_iff.1 h
  clear h
  induction heach with
  | nil => rfl
  | cons hmember _ ih => rw [List.all_cons, List.all_cons, ih, selected_of_query_eq_ok hmember]

/-- A conjunction selects what all of its members select. -/
theorem selected_and {predicates : List Predicate} {query : Query}
    (h : (Predicate.and predicates).query = .ok query) :
    (∀ p ∈ predicates, ∃ query, p.query = .ok query) ∧
      ∀ leaf, query.selects leaf = predicates.all (selected leaf) := by
  rw [Predicate.and, Predicate.query] at h
  obtain ⟨each, heach, h⟩ := bind_eq_ok.1 h
  obtain ⟨members, hmembers, rfl⟩ := exists_mapM_query_of_queries heach
  refine ⟨fun p hp => exists_of_mapM_eq_ok hmembers hp, fun leaf => ?_⟩
  rw [← pure_eq_ok.1 h, Clauses.ofConnected_all, Clauses.selects_must,
    all_selects_of_mapM_query hmembers]

end Predicate

/-- What the own filter of a table selects; everything when there is none. -/
def Table.selects (leaf : Query → Bool) (table : Table) : Bool :=
  table.filter.all (Predicate.selected leaf)

/-- The request of a table selects what its own filter does. -/
theorem Table.selects_request {table : Table} {size : UInt64} {further : List String}
    {request : Request} (h : table.request size further = .ok request) :
    request.index = table.index ∧ request.from? = none ∧ request.size = some size ∧
      ∀ leaf, request.query.selects leaf = table.selects leaf := by
  obtain ⟨clauses, hclauses, h⟩ := bind_eq_ok.1 h
  have hselects : ∀ leaf, clauses.toQuery.selects leaf = table.selects leaf := by
    intro leaf
    unfold Predicate.compileOptional at hclauses
    rw [Table.selects]
    cases hfilter : table.filter with
    | none =>
      rw [hfilter] at hclauses
      cases hclauses
      rfl
    | some filter =>
      rw [hfilter] at hclauses
      exact Predicate.selects_compile hclauses
  by_cases hfields : table.fields.isEmpty = true
  · rw [if_pos hfields] at h
    rw [← pure_eq_ok.1 h]
    exact ⟨rfl, rfl, rfl, hselects⟩
  · rw [if_neg hfields] at h
    rw [← pure_eq_ok.1 h]
    exact ⟨rfl, rfl, rfl, hselects⟩

namespace HashJoin

variable {plan : HashJoin}

theorem ofJoin_eq_ok_iff {join : Join} {options : JoinOptions} :
    ofJoin join options = .ok plan ↔ join.conditions.isEmpty = false ∧
      ∃ keys, join.conditions.mapM (keyPair join) = .ok keys ∧ ⟨join, options, keys⟩ = plan := by
  unfold ofJoin
  by_cases hempty : join.conditions.isEmpty = true
  · rw [if_pos hempty, hempty]
    exact iff_of_false (fun h => by cases h) (fun h => by cases h.1)
  · rw [if_neg hempty]
    rw [Bool.not_eq_true] at hempty
    constructor
    · intro h
      obtain ⟨keys, hkeys, h⟩ := bind_eq_ok.1 h
      exact ⟨hempty, keys, hkeys, pure_eq_ok.1 h⟩
    · rintro ⟨-, keys, hkeys, rfl⟩
      exact bind_eq_ok.2 ⟨keys, hkeys, rfl⟩

theorem exists_keys_of_ofJoin_eq_ok {join : Join} {options : JoinOptions}
    (h : ofJoin join options = .ok plan) :
    ∃ keys, join.conditions.mapM (keyPair join) = .ok keys ∧ ⟨join, options, keys⟩ = plan :=
  (ofJoin_eq_ok_iff.1 h).2

theorem selects_ownQueries {table : Table} {own : List Query} (h : ownQueries table = .ok own) :
    own.all (Query.selects leaf) = table.selects leaf := by
  unfold ownQueries at h
  rw [Table.selects]
  cases hfilter : table.filter with
  | none =>
    rw [hfilter] at h
    cases h
    rfl
  | some filter =>
    rw [hfilter] at h
    obtain ⟨clauses, hclauses, h⟩ := bind_eq_ok.1 h
    rw [← pure_eq_ok.1 h, List.all_cons, List.all_nil, Bool.and_true,
      Predicate.selects_compile hclauses]
    rfl

/-- The choices that the probe asks for: for each key field the parts that it has in a table of keys. -/
def choices (plan : HashJoin) (table : KeyTable) : List Query :=
  (plan.keyFields plan.probeSide).zipIdx.map fun (field, position) =>
    .terms field ((table.distinctParts position).map KeyPart.toValue)

/-- The request of the probed side is that of its table with another query: the table's own filter and
the choices. -/
theorem exists_of_probeRequest_eq_ok {table : KeyTable} {request : Request}
    (h : plan.probeRequest table = .ok request) :
    ∃ side own, plan.sideRequest plan.probeSide = .ok side ∧
      ownQueries (plan.join.table plan.probeSide) = .ok own ∧
      request = { side with query := Clauses.toQuery { filter := own ++ plan.choices table } } := by
  obtain ⟨side, hside, h⟩ := bind_eq_ok.1 h
  obtain ⟨own, hown, h⟩ := bind_eq_ok.1 h
  obtain ⟨parts, hparts, h⟩ := bind_eq_ok.1 h
  have hchoices : parts = plan.choices table := by
    have heach := mapM_eq_ok_iff.1 hparts
    rw [choices]
    clear hparts h
    generalize (plan.keyFields plan.probeSide).zipIdx = fields at heach ⊢
    induction heach with
    | nil => rfl
    | cons hpart _ ih => rw [ih, List.map_cons, Condition.eq_terms_of_query_eq_ok hpart]
  refine ⟨side, own, hside, hown, ?_⟩
  rw [← pure_eq_ok.1 h, hchoices]

/-- The request of the probed side selects what the table's own filter does, among the rows that every
choice selects. -/
theorem selects_probeRequest {table : KeyTable} {request : Request}
    (h : plan.probeRequest table = .ok request) :
    request.index = (plan.join.table plan.probeSide).index ∧ request.from? = none ∧
      request.size = some (plan.options.limit plan.probeSide) ∧
      ∀ leaf, request.query.selects leaf =
        ((plan.join.table plan.probeSide).selects leaf &&
          (plan.choices table).all (Query.selects leaf)) := by
  obtain ⟨side, own, hside, hown, rfl⟩ := exists_of_probeRequest_eq_ok h
  obtain ⟨hindex, hfrom, hsize, -⟩ := Table.selects_request hside
  refine ⟨hindex, hfrom, hsize, ?_⟩
  intro leaf
  rw [Clauses.selects_filter, List.all_append, selects_ownQueries hown]

/-- Of a key in the table, each choice lists the part that a document with this key has in the field. -/
theorem exists_part_of_mem_choices {table : KeyTable} {doc : Document} {key : Key} {choice : Query}
    (hkey : Key.ofDocument? (plan.keyFields plan.probeSide) doc = some key)
    (hmem : key ∈ table.keys) (hchoice : choice ∈ plan.choices table) :
    ∃ field held part, ∃ parts : List KeyPart, choice = .terms field (parts.map KeyPart.toValue) ∧
      doc.get? field = some held ∧ KeyPart.ofValue? held = some part ∧ part ∈ parts := by
  obtain ⟨⟨field, position⟩, hfield, rfl⟩ := List.mem_map.1 hchoice
  obtain ⟨hposition, hname⟩ := List.getElem?_eq_some_iff.1 (List.mem_zipIdx_iff_getElem?.1 hfield)
  obtain ⟨hlength, heach⟩ := List.forall₂_iff_get.1 (mapM_eq_some_iff.1 hkey)
  have hinKey : position < List.length key := hlength ▸ hposition
  have hfieldPart := heach position hposition hinKey
  rw [List.get_eq_getElem, hname] at hfieldPart
  obtain ⟨held, hheld, hpart⟩ := Option.bind_eq_some_iff.1 hfieldPart
  have hlisted : List.get key ⟨position, hinKey⟩ ∈ table.distinctParts position :=
    KeyTable.mem_distinctParts.2 ⟨key, hmem, List.getElem?_eq_getElem hinKey⟩
  exact ⟨field, held, _, _, rfl, hheld, hpart, hlisted⟩

end HashJoin

namespace NestedLoop

variable {plan : NestedLoop}

theorem eq_of_ofJoin_eq_ok {join : Join} {options : JoinOptions}
    (h : ofJoin join options = .ok plan) : ⟨join, options⟩ = plan := by
  obtain ⟨_, -, h⟩ := bind_eq_ok.1 h
  exact pure_eq_ok.1 h

theorem selects_subClauses {predicates : List Predicate} {clauses : Clauses}
    (h : subClauses predicates = .ok clauses) :
    (∀ p ∈ predicates, ∃ query, p.query = .ok query) ∧
      ∀ leaf, clauses.toQuery.selects leaf = predicates.all (Predicate.selected leaf) := by
  unfold subClauses at h
  by_cases hempty : predicates.isEmpty = true
  · rw [if_pos hempty] at h
    rw [List.isEmpty_iff.1 hempty]
    cases h
    exact ⟨List.forall_mem_nil _, fun leaf => rfl⟩
  · rw [if_neg hempty] at h
    obtain ⟨query, hquery, hclauses⟩ := Predicate.exists_query_of_compile_eq_ok h
    obtain ⟨hqueries, hselects⟩ := Predicate.selected_and hquery
    exact ⟨hqueries, fun leaf => (hclauses leaf).trans (hselects leaf)⟩

/-- What a row of the second table has to satisfy to match a row of the first in a join on
equalities. -/
theorem subPredicates_of_onKeys {keys : List KeyPair} (hkeys : plan.join.OnKeys keys)
    (row : Document) :
    plan.subPredicates row = .ok ((keys.mapM (KeyPair.bound row)).map fun bounds =>
      plan.join.second.filter.toList ++ bounds.map .leaf) := by
  rw [subPredicates, boundConditions_of_keyPairs hkeys.keys_eq hkeys.scope, ok_bind, boundFilter,
    hkeys.filter]
  cases keys.mapM (KeyPair.bound row) with
  | none => rfl
  | some bounds =>
    have hnil : plan.join.second.filter.toList ++ bounds.map Predicate.leaf ++ [] =
        plan.join.second.filter.toList ++ bounds.map .leaf := List.append_nil _
    exact congrArg (Except.ok ∘ some) hnil

/-- The bound equalities select the rows that have the row's values in their key fields. -/
theorem selected_bounds {keys : List KeyPair} {row : Document} {bounds : List Condition}
    (hbounds : keys.mapM (KeyPair.bound row) = some bounds)
    (hqueries : ∀ bound ∈ bounds, ∃ query, (Predicate.leaf bound).query = .ok query) :
    (bounds.map .leaf).all (Predicate.selected leaf) = keys.all fun pair =>
      (Join.bindable? row pair.first).any fun value =>
        (Query.term pair.second value).selects leaf := by
  have heach := mapM_eq_some_iff.1 hbounds
  clear hbounds
  induction heach with
  | nil => rfl
  | @cons pair bound _ _ hbound _ ih =>
    obtain ⟨value, hvalue, rfl⟩ := Option.map_eq_some_iff.1 hbound
    obtain ⟨query, hquery⟩ := hqueries _ List.mem_cons_self
    have hterm : query = .term pair.second value := Condition.eq_term_of_query_eq_ok hquery
    rw [List.map_cons, List.all_cons, List.all_cons,
      ih fun bound hmem => hqueries bound (List.mem_cons_of_mem _ hmem),
      Predicate.selected_of_query_eq_ok hquery, hterm, hvalue]
    rfl

/-- The sub-query for a row of a join on equalities selects what the second table's own filter does,
among the rows whose key fields have the row's values. -/
theorem selects_subRequest {keys : List KeyPair} {row : Document} {request : Request}
    (hkeys : plan.join.OnKeys keys) (h : plan.subRequest row = .ok (some request)) :
    request.index = plan.join.second.index ∧ request.from? = none ∧
      request.size = some plan.options.secondLimit ∧
      ∀ leaf, request.query.selects leaf =
        (plan.join.second.selects leaf && keys.all fun pair =>
          (Join.bindable? row pair.first).any fun value =>
            (Query.term pair.second value).selects leaf) := by
  rw [subRequest, subPredicates_of_onKeys hkeys, ok_bind] at h
  cases hbounds : keys.mapM (KeyPair.bound row) with
  | none => rw [hbounds] at h; cases h
  | some bounds =>
    rw [hbounds] at h
    obtain ⟨clauses, hclauses, h⟩ := bind_eq_ok.1 h
    obtain ⟨hqueries, hselects⟩ := selects_subClauses hclauses
    cases h
    refine ⟨rfl, rfl, rfl, fun leaf => (hselects leaf).trans ?_⟩
    rw [List.all_append, selected_bounds hbounds fun bound hmem =>
      hqueries _ (List.mem_append_right _ (List.mem_map_of_mem hmem)), Table.selects]
    cases plan.join.second.filter with
    | none => rfl
    | some filter => rw [Option.toList_some, List.all_cons, List.all_nil, Bool.and_true]; rfl

theorem exists_of_subRequest_eq_none {keys : List KeyPair} {row : Document}
    (hkeys : plan.join.OnKeys keys) (h : plan.subRequest row = .ok none) :
    ∃ pair ∈ keys, Join.bindable? row pair.first = none := by
  rw [subRequest, subPredicates_of_onKeys hkeys, ok_bind] at h
  cases hbounds : keys.mapM (KeyPair.bound row) with
  | none =>
    obtain ⟨pair, hmem, hpair⟩ := exists_of_mapM_eq_none hbounds
    exact ⟨pair, hmem, Option.map_eq_none_iff.1 hpair⟩
  | some bounds =>
    rw [hbounds] at h
    obtain ⟨clauses, -, h⟩ := bind_eq_ok.1 h
    cases h

end NestedLoop

end SearchJoin
