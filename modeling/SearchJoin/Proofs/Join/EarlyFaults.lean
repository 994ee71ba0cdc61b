import SearchJoin.Backend.Script
import SearchJoin.Plan
import SearchJoin.Proofs.Backend.Faults
import SearchJoin.Proofs.Join.Steps

/-!
# When a faulty statement is noticed

A statement is at fault when a predicate is malformed or cannot be executed. Much of this is noticed
before the backend is called, but a hash join compiles the own filter of the probed side and tests the
predicate over both tables after its first search, and a nested loop compiles its sub-queries after it.
A statement that passes a check of these parts is found to be at fault before any call or not at all.

Main statements: `Plan.calls_eq_of_statementFault`; `Plan.statementFault_after_search`, a statement that
is found to be at fault after a call.
-/

namespace SearchJoin

/-! ## Hash joins -/

namespace HashJoin

variable {plan : HashJoin} {join : Join} {options : JoinOptions}

theorem exists_finish_eq_ok (hfilter : ∀ c ∈ plan.join.filterConditions, plan.join.testsOnPairs c = true)
    (table : KeyTable) (build probe : List Document) :
    ∃ rows, plan.finish table build probe = .ok rows := by
  have hcombine : ∀ pair, ∃ row, combine plan.join pair = .ok row := by
    intro pair
    unfold Join.filterConditions at hfilter
    unfold combine
    cases hjoin : plan.join.filter with
    | none => exact ⟨_, rfl⟩
    | some filter =>
      rw [hjoin] at hfilter
      obtain ⟨b, hb⟩ := Join.exists_pairHolds_eq_ok hfilter pair.1 pair.2
      simp only [hb, ok_bind]
      cases b with
      | false => exact ⟨_, rfl⟩
      | true => exact ⟨_, rfl⟩
  exact exists_collect_eq_ok (fun pair _ => hcombine pair) _

theorem neverFaults_afterBuild (hown : (plan.join.table plan.probeSide).hasQuery = true)
    (hnames : "" ∉ plan.keyFields plan.probeSide)
    (hfilter : ∀ c ∈ plan.join.filterConditions, plan.join.testsOnPairs c = true)
    (build : List Document) : (plan.afterBuild build).NeverFaults := by
  unfold afterBuild
  simp only
  split
  · exact .ok _
  · rename_i hbuild
    split
    · rename_i e hmismatch
      obtain ⟨key, -, hkey⟩ := List.exists_of_findSome?_eq_some hmismatch
      obtain ⟨first, second, rfl⟩ := exists_of_keyMismatch?_eq_some hkey
      exact .error rfl
    · have hrequest := (isOk_probeRequest_iff (Bool.eq_false_iff.2 hbuild)).2 ⟨hown, hnames⟩
      refine .ofExcept (.of_isOk hrequest) fun request _ => ?_
      intro answer
      cases answer with
      | error e => exact .error rfl
      | ok hits =>
        obtain ⟨rows, hrows⟩ := exists_finish_eq_ok hfilter
          (KeyTable.ofDocuments (plan.keyFields plan.options.buildSide) build) build hits.hits
        exact .of_isOk (isOk_iff.2 ⟨rows, hrows⟩)

theorem faultsEarly_session (hplan : ofJoin join options = .ok plan)
    (hchecked : join.hashChecked options.buildSide.other = true) : plan.session.FaultsEarly := by
  obtain ⟨hstatic, hfilter⟩ := Bool.and_eq_true_iff.1 hchecked
  obtain ⟨hown, hnames⟩ := Bool.and_eq_true_iff.1 hstatic
  have hnames : "" ∉ plan.keyFields options.buildSide.other := by
    rw [mem_keyFields_iff hplan]
    simpa using hnames
  obtain ⟨keys, -, rfl⟩ := exists_keys_of_ofJoin_eq_ok hplan
  unfold session
  split
  · trivial
  · refine .ofExcept fun request _ => ?_
    intro answer
    cases answer with
    | error e => exact .error rfl
    | ok hits => exact neverFaults_afterBuild hown hnames (List.all_eq_true.1 hfilter) hits.hits

end HashJoin

/-! ## Nested loops -/

namespace NestedLoop

variable {plan : NestedLoop} {join : Join} {options : JoinOptions}

theorem noStatementFault_probeDocuments (batches : List (List Request))
    (completions : List Completion) : NoStatementFault (probeDocuments batches completions) := by
  have hgather : NoStatementFault (gather batches completions) := by
    induction completions with
    | nil => exact .ok _
    | cons completion completions ih =>
      rw [gather]
      split
      · exact .error rfl
      · exact ih.bind fun gathered _ => .ok _
  refine hgather.bind fun gathered _ => ?_
  refine .bind (.mapM fun batch _ => ?_) fun ordered _ => .ok _
  split
  · exact .ok _
  · exact .error rfl

theorem exists_bindConnected_eq_ok {c : Condition} (hcheck : join.checkConnected c = .ok ())
    (hbinds : join.bindsToQuery c = true) (row : Document) :
    ∃ result, join.bindConnected c row = .ok result ∧ ∀ bound ∈ result, bound.query.isOk = true := by
  obtain ⟨bound, hbound, hquery⟩ := Join.exists_bindCondition_eq_ok hbinds row
  rw [Join.bindConnected, hcheck, ok_bind, hbound, ok_bind]
  cases bound with
  | constant holds => exact ⟨none, rfl, by simp⟩
  | left predicate =>
    cases predicate with
    | group connector children => exact ⟨none, rfl, by simp⟩
    | leaf condition =>
      refine ⟨_, rfl, fun c hc => ?_⟩
      cases hc
      exact hquery

theorem exists_boundConditions_eq_ok {conditions : List Condition}
    (hcheck : ∀ c ∈ conditions, join.checkConnected c = .ok ())
    (hbinds : ∀ c ∈ conditions, join.bindsToQuery c = true) (row : Document) :
    ∃ result, boundConditions join row conditions = .ok result ∧
      ∀ predicates ∈ result, ∀ p ∈ predicates, p.query.isOk = true := by
  induction conditions with
  | nil => exact ⟨some [], rfl, by simp⟩
  | cons c conditions ih =>
    obtain ⟨rest, hrest, hqueries⟩ := ih (fun c hc => hcheck c (List.mem_cons_of_mem _ hc))
      fun c hc => hbinds c (List.mem_cons_of_mem _ hc)
    obtain ⟨bound, hbound, hquery⟩ :=
      exists_bindConnected_eq_ok (hcheck c List.mem_cons_self) (hbinds c List.mem_cons_self) row
    rw [boundConditions, hbound, ok_bind]
    cases bound with
    | none => exact ⟨none, rfl, by simp⟩
    | some bound =>
      rw [hrest]
      cases rest with
      | none => exact ⟨none, rfl, by simp⟩
      | some rest =>
        refine ⟨some (.leaf bound :: rest), rfl, fun predicates hpredicates => ?_⟩
        cases hpredicates
        exact List.forall_mem_cons.2 ⟨hquery bound rfl, hqueries rest rfl⟩

theorem exists_boundFilter_eq_ok
    (hbinds : ∀ c ∈ join.filterConditions, join.bindsToQuery c = true) (row : Document) :
    ∃ result, boundFilter join row = .ok result ∧
      ∀ predicates ∈ result, ∀ p ∈ predicates, p.query.isOk = true := by
  unfold Join.filterConditions at hbinds
  unfold boundFilter
  cases hfilter : join.filter with
  | none => exact ⟨some [], rfl, by simp⟩
  | some filter =>
    rw [hfilter] at hbinds
    obtain ⟨bound, hbound, hquery⟩ := Join.exists_bind_eq_ok row filter hbinds
    simp only [hbound, ok_bind]
    match bound with
    | .constant false => exact ⟨none, rfl, by simp⟩
    | .constant true => exact ⟨some [], rfl, by simp⟩
    | .left p =>
      refine ⟨some [p], rfl, fun predicates hpredicates => ?_⟩
      cases hpredicates
      exact List.forall_mem_singleton.2 hquery

/-- Every member of what a row of the second table has to satisfy has a query. -/
theorem exists_subPredicates_eq_ok (plan : NestedLoop)
    (hown : plan.join.second.hasQuery = true)
    (hcheck : ∀ c ∈ plan.join.conditions, plan.join.checkConnected c = .ok ())
    (hconditions : ∀ c ∈ plan.join.conditions, plan.join.bindsToQuery c = true)
    (hfilter : ∀ c ∈ plan.join.filterConditions, plan.join.bindsToQuery c = true) (row : Document) :
    ∃ result, plan.subPredicates row = .ok result ∧
      ∀ predicates ∈ result, ∀ p ∈ predicates, p.query.isOk = true := by
  obtain ⟨bounds, hbounds, hqueries⟩ := exists_boundConditions_eq_ok hcheck hconditions row
  obtain ⟨filter, hbound, hfilters⟩ := exists_boundFilter_eq_ok hfilter row
  rw [subPredicates, hbounds, ok_bind]
  cases bounds with
  | none => exact ⟨none, rfl, by simp⟩
  | some bounds =>
    simp only [hbound, ok_bind]
    cases filter with
    | none => exact ⟨none, rfl, by simp⟩
    | some filter =>
      refine ⟨_, rfl, fun predicates hpredicates p hp => ?_⟩
      cases hpredicates
      rcases List.mem_append.1 hp with hp | hp
      · rcases List.mem_append.1 hp with hp | hp
        · exact (Option.all_eq_true _ _).1 hown p (Option.mem_toList.1 hp)
        · exact hqueries bounds rfl p hp
      · exact hfilters filter rfl p hp

theorem isOk_subClauses {predicates : List Predicate}
    (h : ∀ p ∈ predicates, p.query.isOk = true) : (subClauses predicates).isOk = true := by
  unfold subClauses
  split
  · rfl
  · rw [Predicate.isOk_compile, Predicate.isOk_query_and, List.all_eq_true]
    exact h

theorem noStatementFault_subRequest (hplan : ofJoin join options = .ok plan)
    (hchecked : join.loopChecked = true) (row : Document) :
    NoStatementFault (plan.subRequest row) := by
  obtain ⟨hstatic, hfilter⟩ := Bool.and_eq_true_iff.1 hchecked
  obtain ⟨hown, hconditions⟩ := Bool.and_eq_true_iff.1 hstatic
  obtain ⟨_, hcheck, hplan⟩ := bind_eq_ok.1 hplan
  cases hplan
  obtain ⟨result, hresult, hqueries⟩ := exists_subPredicates_eq_ok ⟨join, options⟩ hown
    (fun c hc => (exists_of_mapM_eq_ok hcheck hc).choose_spec) (List.all_eq_true.1 hconditions)
    (List.all_eq_true.1 hfilter) row
  rw [subRequest, hresult, ok_bind]
  cases result with
  | none => exact .ok _
  | some predicates =>
    exact .bind (.of_isOk (isOk_subClauses (hqueries predicates rfl))) fun clauses _ => .ok _

theorem noStatementFault_subRequests (h : ∀ row, NoStatementFault (plan.subRequest row))
    (rows : List Document) : NoStatementFault (plan.subRequests rows) := by
  induction rows with
  | nil => exact .ok _
  | cons row rows ih =>
    rw [subRequests]
    refine (h row).bind fun request _ => ?_
    cases request with
    | none => exact ih
    | some request => exact ih.bind fun pairs _ => .ok _

theorem faultsEarly_session (hplan : ofJoin join options = .ok plan)
    (hchecked : join.loopChecked = true) : plan.session.FaultsEarly := by
  unfold session
  split
  · trivial
  · refine .ofExcept fun request _ => ?_
    intro answer
    cases answer with
    | error e => exact .error rfl
    | ok hits =>
      refine .ofExcept (noStatementFault_subRequests
        (noStatementFault_subRequest hplan hchecked) hits.hits) fun pairs _ => ?_
      intro completions
      exact (noStatementFault_probeDocuments _ completions).bind fun found _ => .ok _

end NestedLoop

namespace Plan

variable {plan : Plan} {backend : Backend} {calls : List Call}

/-- What the strategy does after its first request cannot find the statement to be at fault. -/
def isChecked : Plan → Bool
  | .select _ => true
  | .join .hash statement options => statement.hashChecked options.buildSide.other
  | .join .nestedLoop statement _ => statement.loopChecked

/-- A plan that passes the check and finds the statement to be at fault has not called the backend. The
error of a single search is handed on as it is, so there the backend itself must not answer with an
error of the statement. -/
theorem calls_eq_of_statementFault (hchecked : plan.isChecked = true)
    (hbackend : plan.strategy? = none →
      ∀ calls request, NoStatementFault (backend.search calls request))
    {e : Error} (h : (plan.session.run backend calls).1 = .error e)
    (he : e.isStatementFault = true) : (plan.session.run backend calls).2 = calls := by
  cases plan with
  | select statement =>
    cases hrequest : statement.request with
    | error fault => simp only [session, hrequest, Session.ofExcept, Session.run]
    | ok request =>
      simp only [session, hrequest, Session.ofExcept, Session.run] at h
      have hanswer := (hbackend rfl calls request).map Output.hits
      rw [hanswer e h] at he
      cases he
  | join strategy statement options =>
    cases strategy with
    | hash =>
      refine Session.FaultsEarly.calls_eq (.ofExcept fun plan hplan => ?_) h he
      exact (HashJoin.faultsEarly_session hplan hchecked).map Output.rows
    | nestedLoop =>
      refine Session.FaultsEarly.calls_eq (.ofExcept fun plan hplan => ?_) h he
      exact (NestedLoop.faultsEarly_session hplan hchecked).map Output.rows

end Plan

namespace Sample

/-- The users with their orders, where the own filter of one of the tables is a choice of nothing. -/
def emptyChoice (side : Side) : Join :=
  let filter := some (.leaf (.isIn "state" []))
  match side with
  | .first => { join with first := { join.first with filter } }
  | .second => { join with second := { join.second with filter } }

/-- A backend that finds a user with an identifier and then nothing more. -/
def oneUser : Script := { searches := [.ok (.ofDocuments [user (some "u1") true])] }

end Sample

/-- The own filter of the build side is compiled before the first search. -/
theorem Plan.calls_eq_of_statementFault_sample :
    let plan := Plan.join .hash (Sample.emptyChoice .first) (Sample.options .first none)
    (plan.session.run Sample.oneUser.backend []).1 =
        .error (.malformedPredicate "state" (.noValue .isIn)) ∧
      (plan.session.run Sample.oneUser.backend []).2 = [] :=
  ⟨rfl, Plan.calls_eq_of_statementFault rfl (fun h => nomatch h) rfl rfl⟩

/-- The own filter of the probed side is compiled after the build side was searched. -/
theorem Plan.statementFault_after_search :
    let plan := Plan.join .hash (Sample.emptyChoice .second) (Sample.options .first none)
    ∃ request, plan.session.run Sample.oneUser.backend [] =
      (.error (.malformedPredicate "state" (.noValue .isIn)), [.search request]) :=
  ⟨_, rfl⟩

end SearchJoin
