import SearchJoin.Proofs.Join.Explained
import SearchJoin.Proofs.Join.SubQuery

/-!
# Where the strategies look for the second table's fields

A condition of the `ON` clause has a scope: its field of the second table is one of the documents, of an
object nested in them, or of their child documents. In the sub-query of a nested loop its clause stands
inside this scope. The key fields of a hash join have none, so the clause with which the second table is
probed looks in the documents themselves.

Main statements: `HashJoin.exists_onClauses`, the clauses of both strategies, condition by condition;
`HashJoin.probeRequest_drops_scope`, a condition on nested objects.
-/

namespace SearchJoin

/-- The scope that a query stands in. -/
def Query.scope : Query → Scope
  | .nested path _ => .nested path
  | .hasChild childType _ => .child childType
  | _ => .document

theorem Scope.scope_wrap {query : Query} (h : query.scope = .document) (scope : Scope) :
    (scope.wrap query).scope = scope := by
  cases scope with
  | document => exact h
  | nested path => rfl
  | child childType => rfl

namespace NestedLoop

/-- A conjunction with a condition among its members has the queries of its members as clauses, also when
it is opened because the condition is the only one. -/
theorem exists_members_of_subClauses {predicates : List Predicate} {clauses : Clauses}
    (h : subClauses predicates = .ok clauses) {c : Condition} (hc : .leaf c ∈ predicates) :
    ∃ members, predicates.mapM Predicate.query = .ok members ∧
      clauses = { filter := [Clauses.toQuery { must := members }] } := by
  match predicates with
  | [p] =>
    obtain rfl := List.mem_singleton.1 hc
    obtain ⟨scoring, hscoring, h⟩ := bind_eq_ok.1 h
    obtain ⟨query, hquery, hscoring⟩ := bind_eq_ok.1 hscoring
    have hmember : (Predicate.leaf c).query = .ok query :=
      (Predicate.query_withConnector .all (.leaf c)).symm.trans hquery
    cases hscoring
    cases h
    exact ⟨[query], mapM_eq_ok_iff.2 (.cons hmember .nil), rfl⟩
  | p :: q :: predicates =>
    obtain ⟨scoring, hscoring, h⟩ := bind_eq_ok.1 h
    obtain ⟨each, heach, hscoring⟩ := bind_eq_ok.1 hscoring
    have hall : Predicate.queries ((p :: q :: predicates).map (Predicate.withConnector .all)) =
      .ok each := heach
    obtain ⟨members, hmembers, rfl⟩ := Predicate.exists_mapM_query_of_queries hall
    cases hscoring
    cases h
    exact ⟨members, hmembers, by rw [Clauses.ofConnected_all]⟩

end NestedLoop

namespace HashJoin

variable {join : Join} {options : JoinOptions} {plan : HashJoin} {row : Document} {c : Condition}
  {key : KeyPair} {choice bound : Query}

/-- The clauses of the two strategies for a condition of the `ON` clause. A hash join probes the second
table's field for parts of keys, in no scope; in the sub-query for a row the field has the row's value, in
the scope of the condition. -/
def OnClauses (join : Join) (row : Document) (c : Condition) (choice bound : Query) : Prop :=
  ∃ key parts value, keyPair join c = .ok key ∧ Join.bindable? row key.first = some value ∧
    choice = .terms key.second parts ∧ bound = c.scope.wrap (.term key.second value)

/-- The clauses stand in the same scope only for a condition on the documents. -/
theorem OnClauses.scope_eq_iff (h : OnClauses join row c choice bound) :
    choice.scope = bound.scope ↔ c.scope = .document := by
  obtain ⟨key, parts, value, -, -, rfl, rfl⟩ := h
  rw [Scope.scope_wrap rfl]
  exact eq_comm

/-- A bound equality of key fields is a clause in the scope of its condition. -/
theorem exists_of_bindConnected {d : Condition} (hkey : keyPair join c = .ok key)
    (hbound : join.bindConnected c row = .ok (some d)) (hquery : d.query = .ok bound) :
    ∃ value, Join.bindable? row key.first = some value ∧
      bound = c.scope.wrap (.term key.second value) := by
  rw [Join.bindConnected_of_connection? (connection?_of_keyPair_eq_ok hkey)] at hbound
  obtain ⟨value, hvalue, rfl⟩ := Option.map_eq_some_iff.1 (Except.ok.inj hbound)
  exact ⟨value, hvalue, Condition.eq_wrap_term_of_query_eq_ok rfl rfl hquery⟩

/-- The clauses of a probe and of a sub-query go with the conditions of the `ON` clause, one by one. -/
theorem exists_onClauses_of_forall₂ {conditions bounds : List Condition} {choices queries : List Query}
    (hchoices : List.Forall₂ (fun c choice => ∃ key parts, keyPair join c = .ok key ∧
      choice = .terms key.second parts) conditions choices)
    (hbounds : List.Forall₂ (fun c d => join.bindConnected c row = .ok (some d)) conditions bounds)
    (hqueries : List.Forall₂ (fun d query => d.query = .ok query) bounds queries) :
    ∃ clauses : List (Query × Query), clauses.map Prod.fst = choices ∧
      clauses.map Prod.snd = queries ∧
      List.Forall₂ (fun c both => OnClauses join row c both.1 both.2) conditions clauses := by
  induction hchoices generalizing bounds queries with
  | nil =>
    cases hbounds
    cases hqueries
    exact ⟨[], rfl, rfl, .nil⟩
  | @cons c choice _ _ hchoice _ ih =>
    obtain _ | ⟨hbound, hbounds⟩ := hbounds
    obtain _ | ⟨hquery, hqueries⟩ := hqueries
    obtain ⟨clauses, rfl, rfl, hclauses⟩ := ih hbounds hqueries
    obtain ⟨key, parts, hkey, hparts⟩ := hchoice
    obtain ⟨value, hvalue, hwrap⟩ := exists_of_bindConnected hkey hbound hquery
    exact ⟨(choice, _) :: clauses, rfl, rfl,
      .cons ⟨key, parts, value, hkey, hvalue, hparts, hwrap⟩ hclauses⟩

/-- The choices with which the second table is probed go with the conditions of the `ON` clause. -/
theorem forall₂_choices_of_buildSide (hplan : ofJoin join options = .ok plan)
    (hside : options.buildSide = .first) (table : KeyTable) :
    List.Forall₂ (fun c choice => ∃ key parts, keyPair join c = .ok key ∧
      choice = .terms key.second parts) join.conditions (plan.choices table) := by
  obtain ⟨keys, hkeys, rfl⟩ := exists_keys_of_ofJoin_eq_ok hplan
  have hprobe : probeSide ⟨join, options, keys⟩ = .second := by
    rw [probeSide, hside]
    rfl
  have hchoices : List.Forall₂ _ join.conditions (choices ⟨join, options, keys⟩ table) :=
    forall₂_choices hkeys table
  refine hchoices.imp ?_
  rintro c choice ⟨key, parts, hkey, rfl⟩
  rw [hprobe]
  exact ⟨key, parts, hkey, rfl⟩

/-- A hash join that collects the keys of the first table and a nested loop ask the same fields of the
second table for each condition of the `ON` clause, the probe in no scope and the sub-query in that of the
condition: the scopes are the same exactly for conditions on the documents. -/
theorem exists_onClauses {table : KeyTable} {probe sub : Request} {others : JoinOptions}
    (hplan : ofJoin join options = .ok plan) (hside : options.buildSide = .first)
    (hprobe : plan.probeRequest table = .ok probe)
    (hsub : NestedLoop.subRequest ⟨join, others⟩ row = .ok (some sub)) :
    ∃ (own before after : List Query) (clauses : List (Query × Query)),
      ownQueries join.second = .ok own ∧
      join.second.filter.toList.mapM Predicate.query = .ok before ∧
      probe.query = Clauses.toQuery { filter := own ++ clauses.map Prod.fst } ∧
      sub.query = Clauses.toQuery { filter :=
        [Clauses.toQuery { must := before ++ clauses.map Prod.snd ++ after }] } ∧
      List.Forall₂ (fun c both => OnClauses join row c both.1 both.2 ∧
        (both.1.scope = both.2.scope ↔ c.scope = .document)) join.conditions clauses := by
  have hchoices := forall₂_choices_of_buildSide hplan hside table
  obtain ⟨hnonempty, keys, -, hjoin⟩ := ofJoin_eq_ok_iff.1 hplan
  have hsecond : plan.join.table plan.probeSide = join.second := by
    rw [← hjoin, probeSide, hside]
    rfl
  obtain ⟨side, own, -, hown, rfl⟩ := exists_of_probeRequest_eq_ok hprobe
  obtain ⟨bounds, rest, conjunction, hbounds, -, hconjunction, hquery⟩ :=
    NestedLoop.exists_of_subRequest_eq_some hsub
  -- The `ON` clause has a condition, so a bound one is among the members of the conjunction.
  obtain ⟨d, hd⟩ : ∃ d, d ∈ bounds := by
    refine List.exists_mem_of_ne_nil bounds ?_
    rintro rfl
    rw [List.forall₂_nil_right_iff.1 hbounds] at hnonempty
    cases hnonempty
  obtain ⟨members, hmembers, rfl⟩ := NestedLoop.exists_members_of_subClauses hconjunction
    (List.mem_append_left _ (List.mem_append_right _ (List.mem_map_of_mem hd)))
  rw [List.mapM_append] at hmembers
  obtain ⟨first, hfirst, hmembers⟩ := bind_eq_ok.1 hmembers
  obtain ⟨after, -, hmembers⟩ := bind_eq_ok.1 hmembers
  rw [List.mapM_append] at hfirst
  obtain ⟨before, hbefore, hfirst⟩ := bind_eq_ok.1 hfirst
  obtain ⟨queries, hqueries, hfirst⟩ := bind_eq_ok.1 hfirst
  rw [mapM_eq_ok_iff, List.forall₂_map_left_iff] at hqueries
  obtain ⟨clauses, hprobed, hbound, hclauses⟩ :=
    exists_onClauses_of_forall₂ hchoices hbounds hqueries
  refine ⟨own, before, after, clauses, ?_, hbefore, ?_, ?_, ?_⟩
  · rw [← hsecond, hown]
  · rw [hprobed]
  · rw [hquery, ← pure_eq_ok.1 hmembers, ← pure_eq_ok.1 hfirst, hbound]
  · exact hclauses.imp fun _ _ h => ⟨h, h.scope_eq_iff⟩

end HashJoin

namespace Sample

/-- Users with their orders, of which an item is for them. -/
def itemJoin : Join :=
  { join with
    conditions := [.fields "a.id" .eq "b.user",
      (Condition.fields "a.id" .eq "b.items.user").nested "items"] }

/-- The join by hashing the users' identifiers. -/
def itemHash : HashJoin :=
  ⟨itemJoin, options .first none, [⟨"id", "user"⟩, ⟨"id", "items.user"⟩]⟩

/-- A user who has an identifier. -/
def someUser : Document := user (some "u1") true

end Sample

namespace HashJoin

/-- The users of items are looked for in the items by the sub-query and in the orders by the probe. -/
theorem probeRequest_drops_scope :
    ∃ probe sub, ofJoin Sample.itemJoin (Sample.options .first none) = .ok Sample.itemHash ∧
      Sample.itemHash.probeRequest (Sample.itemHash.buildTable [Sample.someUser]) = .ok probe ∧
      NestedLoop.subRequest ⟨Sample.itemJoin, Sample.options .first none⟩ Sample.someUser =
        .ok (some sub) ∧
      probe.query = Clauses.toQuery { filter :=
        [.terms "user" [.str "u1"], .terms "items.user" [.str "u1"]] } ∧
      sub.query = Clauses.toQuery { filter := [Clauses.toQuery { must :=
        [.term "user" (.str "u1"), .nested "items" (.term "items.user" (.str "u1"))] }] } :=
  ⟨_, _, rfl, rfl, rfl, rfl, rfl⟩

/-- Of the two conditions only the one on the orders themselves has clauses in one scope. -/
theorem exists_onClauses_sample :
    ∃ (probe : Request) (orders items : Query × Query),
      ofJoin Sample.itemJoin (Sample.options .first none) = .ok Sample.itemHash ∧
      Sample.itemHash.probeRequest (Sample.itemHash.buildTable [Sample.someUser]) = .ok probe ∧
      probe.query = Clauses.toQuery { filter := [orders.1, items.1] } ∧
      orders.1.scope = orders.2.scope ∧ items.1.scope ≠ items.2.scope := by
  have hplan : ofJoin Sample.itemJoin (Sample.options .first none) = .ok Sample.itemHash := rfl
  have hprobe : Sample.itemHash.probeRequest (Sample.itemHash.buildTable [Sample.someUser]) =
    .ok _ := rfl
  have hsub : NestedLoop.subRequest ⟨Sample.itemJoin, Sample.options .first none⟩
    Sample.someUser = .ok (some _) := rfl
  obtain ⟨own, before, after, clauses, hown, -, hquery, -, hclauses⟩ :=
    exists_onClauses hplan rfl hprobe hsub
  obtain _ | ⟨⟨-, horders⟩, _ | ⟨⟨-, hitems⟩, _ | _⟩⟩ := hclauses
  cases hown
  refine ⟨_, _, _, hplan, hprobe, hquery, horders.2 rfl, fun hsame => ?_⟩
  cases hitems.1 hsame

end HashJoin

end SearchJoin
