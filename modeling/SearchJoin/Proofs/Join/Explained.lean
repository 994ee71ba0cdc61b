import SearchJoin.Plan
import SearchJoin.Proofs.Backend.Calls
import SearchJoin.Proofs.Join.Nesting
import SearchJoin.Proofs.Join.Requests
import SearchJoin.Proofs.Json.Reading

/-!
# An explanation shows what is sent

The requests of a plan are known before it is run, and the text of its explanation can be read back as these
requests. A run sends them, or it sends requests that differ from them in nothing but their query: the probe
of a hash join asks for keys besides, and the sub-queries of a nested loop for what matches a row. Only a join
that is asked for no row sends nothing.

Main statement: `Plan.explains_run`.
-/

namespace SearchJoin

/-- The requests differ in nothing but their query: they have the same index, page, size, fields and
sort. -/
def Request.SameButQuery (request other : Request) : Prop :=
  request = { other with query := request.query }

/-- The request of a side. -/
def JoinRequests.request (requests : JoinRequests) : Side → Request
  | .first => requests.first
  | .second => requests.second

/-- The table's own filter as a query; no query when the table has no filter. -/
def Table.OwnQueries (table : Table) (own : List Query) : Prop :=
  match table.filter with
  | none => own = []
  | some filter => ∃ clauses, filter.compile false = .ok clauses ∧ own = [clauses.toQuery]

/-- The probe of a side: its query has clauses of the kind `filter` alone, the table's own filter and
then a choice of values for the key field of each condition of the `ON` clause, in order. -/
def Join.IsProbe (join : Join) (side : Side) (explained probe : Request) : Prop :=
  probe.SameButQuery explained ∧ ∃ own choices,
    probe.query = .bool [] [] [] (own ++ choices) ∧ (join.table side).OwnQueries own ∧
      List.Forall₂ (fun c query => ∃ pair values, HashJoin.keyPair join c = .ok pair ∧
        query = .terms (pair.field side) values) join.conditions choices

/-- The text shows the requests: it reads as the body of a single search, and for a join it has the index and
the body of both requests. -/
def PlanRequests.ShownBy : PlanRequests → String → Prop
  | .search request, text => Json.ofChars? text.toList = some request.body
  | .join requests, text => ∃ parameters, Json.ofChars? text.toList = some (.obj [
      ("first_table", .obj [("index", .str requests.first.index), ("request", requests.first.body)]),
      ("join", parameters),
      ("second_table", .obj [("index", .str requests.second.index), ("request", requests.second.body)])])

/-- The requests of a plan explain the calls of a run. A join makes no call if it is asked for no row, and
else it makes the first one at least. -/
def Plan.Explains : Plan → PlanRequests → List Call → Prop
  | .select _, .search request, sent => sent = [.search request]
  | .join .hash statement options, .join requests, sent =>
    if options.totalLimit = some 0 then sent = []
    else sent = [.search (requests.request options.buildSide)] ∨
      ∃ probe, sent = [.search (requests.request options.buildSide), .search probe] ∧
        statement.IsProbe options.buildSide.other (requests.request options.buildSide.other) probe
  | .join .nestedLoop _ options, .join requests, sent =>
    if options.totalLimit = some 0 then sent = []
    else ∃ batches : List (List Request),
      sent = .search requests.first :: batches.map .multiSearch ∧
        ∀ batch ∈ batches, ∀ request ∈ batch, request.SameButQuery requests.second
  | _, _, _ => False

theorem PlanRequests.shownBy_explain (requests : PlanRequests) : requests.ShownBy requests.explain := by
  cases requests with
  | search request => exact Json.ofChars?_pretty request.body
  | join requests => exact ⟨requests.parameters, Json.ofChars?_pretty _⟩

theorem Plan.explain_of_requests_eq_ok {plan : Plan} {requests : PlanRequests}
    (h : plan.requests = .ok requests) : plan.explain = .ok requests.explain := by
  rw [explain, h]
  rfl

namespace HashJoin

variable {join : Join} {options : JoinOptions} {plan : HashJoin} {requests : JoinRequests}

theorem sideRequest_of_requests_eq_ok (h : plan.requests = .ok requests) (side : Side) :
    plan.sideRequest side = .ok (requests.request side) := by
  obtain ⟨first, hfirst, h⟩ := bind_eq_ok.1 h
  obtain ⟨second, hsecond, h⟩ := bind_eq_ok.1 h
  rw [← pure_eq_ok.1 h]
  cases side with
  | first => exact hfirst
  | second => exact hsecond

theorem ownQueries_of_eq_ok {table : Table} {own : List Query} (h : ownQueries table = .ok own) :
    table.OwnQueries own := by
  unfold ownQueries at h
  unfold Table.OwnQueries
  cases hfilter : table.filter with
  | none =>
    rw [hfilter] at h
    cases h
    rfl
  | some filter =>
    rw [hfilter] at h
    obtain ⟨clauses, hclauses, h⟩ := bind_eq_ok.1 h
    exact ⟨clauses, hclauses, (pure_eq_ok.1 h).symm⟩

/-- There is one choice for the key field of each condition. -/
theorem forall₂_choices (hkeys : join.conditions.mapM (keyPair join) = .ok plan.keys)
    (table : KeyTable) :
    List.Forall₂ (fun c query => ∃ pair values, keyPair join c = .ok pair ∧
      query = .terms (pair.field plan.probeSide) values) join.conditions (plan.choices table) := by
  have heach := mapM_eq_ok_iff.1 hkeys
  unfold choices keyFields
  clear hkeys
  -- The positions of the fields that are left start with any number.
  generalize plan.keys = keys, join.conditions = conditions, 0 = start at heach ⊢
  induction heach generalizing start with
  | nil => exact .nil
  | @cons c pair conditions pairs hpair _ ih =>
    rw [List.map_cons, List.zipIdx_cons, List.map_cons]
    refine .cons ?_ (ih (start + 1))
    exact ⟨pair, (table.distinctParts start).map KeyPart.toValue, hpair, rfl⟩

theorem isProbe_probeRequest (hplan : ofJoin join options = .ok plan)
    (hrequests : plan.requests = .ok requests) {table : KeyTable} {probe : Request}
    (h : plan.probeRequest table = .ok probe) :
    join.IsProbe plan.probeSide (requests.request plan.probeSide) probe := by
  obtain ⟨side, own, hside, hown, hprobe⟩ := exists_of_probeRequest_eq_ok h
  have hsame : side = requests.request plan.probeSide := by
    rw [sideRequest_of_requests_eq_ok hrequests] at hside
    exact (Except.ok.inj hside).symm
  obtain ⟨keys, hkeys, rfl⟩ := exists_keys_of_ofJoin_eq_ok hplan
  rw [hprobe, ← hsame]
  exact ⟨rfl, own, _, rfl, ownQueries_of_eq_ok hown, forall₂_choices hkeys table⟩

theorem explains_session (hplan : ofJoin join options = .ok plan)
    (hrequests : plan.requests = .ok requests) :
    plan.session.Sends ((Plan.join .hash join options).Explains (.join requests)) := by
  have hoptions : plan.options = options := by
    obtain ⟨_, -, rfl⟩ := exists_keys_of_ofJoin_eq_ok hplan
    rfl
  unfold session Plan.Explains
  by_cases hlimit : options.totalLimit = some 0
  · rw [hoptions, if_pos hlimit]
    simp only [if_pos hlimit]
    exact rfl
  · rw [hoptions, if_neg hlimit, sideRequest_of_requests_eq_ok hrequests]
    simp only [if_neg hlimit]
    -- Whatever comes after the first search, the run may end with it.
    intro answer
    cases answer with
    | error e => exact .inl rfl
    | ok hits =>
      simp only [afterBuild]
      split
      · exact .inl rfl
      · split
        · exact .inl rfl
        · refine .ofExcept (.inl rfl) ?_
          intro probe hprobe answer
          have hisProbe := isProbe_probeRequest hplan hrequests hprobe
          rw [probeSide, hoptions] at hisProbe
          cases answer with
          | error e => exact .inr ⟨probe, rfl, hisProbe⟩
          | ok hits => exact .inr ⟨probe, rfl, hisProbe⟩

end HashJoin

namespace NestedLoop

variable {join : Join} {options : JoinOptions} {plan : NestedLoop} {requests : JoinRequests}

theorem requests_eq_ok (h : plan.requests = .ok requests) :
    plan.driveRequest = .ok requests.first ∧
      plan.join.second.request plan.options.secondLimit [] = .ok requests.second := by
  obtain ⟨first, hfirst, h⟩ := bind_eq_ok.1 h
  obtain ⟨second, hsecond, h⟩ := bind_eq_ok.1 h
  rw [← pure_eq_ok.1 h]
  exact ⟨hfirst, hsecond⟩

/-- A sub-query is sent as the second table's own request is, but for its query. -/
theorem sameButQuery_subRequest {own request : Request} {row : Document}
    (hown : plan.join.second.request plan.options.secondLimit [] = .ok own)
    (hsub : plan.subRequest row = .ok (some request)) : request.SameButQuery own := by
  obtain ⟨predicates, -, hsub⟩ := bind_eq_ok.1 hsub
  cases predicates with
  | none => cases hsub
  | some predicates =>
    obtain ⟨clauses, -, hsub⟩ := bind_eq_ok.1 hsub
    obtain ⟨ownClauses, -, hown⟩ := bind_eq_ok.1 hown
    cases hsub
    by_cases hfields : plan.join.second.fields.isEmpty = true
    · rw [if_pos hfields] at hown
      rw [List.isEmpty_iff.1 hfields, ← pure_eq_ok.1 hown]
      rfl
    · rw [if_neg hfields] at hown
      rw [← pure_eq_ok.1 hown]
      rfl

theorem mem_batches_of_subRequests {rows : List Document} {pairs : List (Document × Request)}
    (hpairs : plan.subRequests rows = .ok pairs) {size : Nat} {batch : List Request}
    (hbatch : batch ∈ chunks size (pairs.map Prod.snd)) {request : Request} (h : request ∈ batch) :
    ∃ row, plan.subRequest row = .ok (some request) := by
  have hmem : request ∈ pairs.map Prod.snd := by
    rw [← flatten_chunks size (pairs.map Prod.snd)]
    exact List.mem_flatten_of_mem hbatch h
  rw [subRequests_eq_ok (exists_of_subRequests_eq_ok hpairs)] at hpairs
  cases hpairs
  obtain ⟨⟨row, sub⟩, hpair, rfl⟩ := List.mem_map.1 hmem
  obtain ⟨other, -, hother⟩ := List.mem_filterMap.1 hpair
  split at hother
  · rename_i found hfound
    cases hother
    exact ⟨row, hfound⟩
  · cases hother

theorem explains_session (hplan : ofJoin join options = .ok plan)
    (hrequests : plan.requests = .ok requests) :
    plan.session.Sends ((Plan.join .nestedLoop join options).Explains (.join requests)) := by
  obtain ⟨hdrive, hsecond⟩ := requests_eq_ok hrequests
  have hoptions : plan.options = options := by
    rw [← eq_of_ofJoin_eq_ok hplan]
  unfold session Plan.Explains
  by_cases hlimit : options.totalLimit = some 0
  · rw [hoptions, if_pos hlimit]
    simp only [if_pos hlimit]
    exact rfl
  · rw [hoptions, if_neg hlimit, hdrive]
    simp only [if_neg hlimit]
    intro answer
    cases answer with
    | error e => exact ⟨[], rfl, List.forall_mem_nil _⟩
    | ok hits =>
      refine .ofExcept ⟨[], rfl, List.forall_mem_nil _⟩ ?_
      intro pairs hpairs completions
      refine ⟨chunks plan.options.batchSize.toNat (pairs.map Prod.snd), ?_, ?_⟩
      · rw [List.append_nil]
      · intro batch hbatch request hrequest
        obtain ⟨row, hrow⟩ := mem_batches_of_subRequests hpairs hbatch hrequest
        exact sameButQuery_subRequest hsecond hrow

end NestedLoop

/-- What a run sends, to whatever backend, the requests of the plan have explained, and the text of the
explanation shows them. -/
theorem Plan.explains_run {plan : Plan} {requests : PlanRequests}
    (hrequests : plan.requests = .ok requests) (backend : Backend) (calls : List Call) :
    plan.explain = .ok requests.explain ∧ requests.ShownBy requests.explain ∧
      ∃ sent, (plan.session.run backend calls).2 = calls ++ sent ∧ plan.Explains requests sent := by
  refine ⟨explain_of_requests_eq_ok hrequests, requests.shownBy_explain, ?_⟩
  cases plan with
  | select statement =>
    obtain ⟨request, hrequest, hrequests⟩ := bind_eq_ok.1 hrequests
    rw [← pure_eq_ok.1 hrequests, session, hrequest]
    exact ⟨[.search request], rfl, rfl⟩
  | join strategy statement options =>
    cases strategy with
    | hash =>
      obtain ⟨plan, hplan, hrequests⟩ := bind_eq_ok.1 hrequests
      obtain ⟨both, hboth, hrequests⟩ := bind_eq_ok.1 hrequests
      rw [← pure_eq_ok.1 hrequests, session, hplan]
      exact ((HashJoin.explains_session hplan hboth).map Output.rows).run
    | nestedLoop =>
      obtain ⟨plan, hplan, hrequests⟩ := bind_eq_ok.1 hrequests
      obtain ⟨both, hboth, hrequests⟩ := bind_eq_ok.1 hrequests
      rw [← pure_eq_ok.1 hrequests, session, hplan]
      exact ((NestedLoop.explains_session hplan hboth).map Output.rows).run

/-- The example's hash join sends both of its searches. Its nested loop searches the users, and then the orders
of the three who have an identifier, in two batches. -/
theorem Plan.explains_run_sample :
    let plan strategy := Plan.join strategy Sample.join (Sample.options .first none)
    let sent strategy := ((plan strategy).session.run (.finding fun request => Sample.stored request.index) []).2
    (∃ requests, (plan .hash).requests = .ok (.join requests) ∧
      (plan .hash).explain = .ok requests.explain ∧
      sent .hash = [.search requests.first, .search Sample.probe] ∧
      (plan .hash).Explains (.join requests) (sent .hash)) ∧
    ∃ requests, (plan .nestedLoop).requests = .ok (.join requests) ∧
      (plan .nestedLoop).explain = .ok requests.explain ∧
      sent .nestedLoop = [.search requests.first,
        .multiSearch [Sample.search "orders" "user" (.str "u1"), Sample.search "orders" "user" (.str "u2")],
        .multiSearch [Sample.search "orders" "user" (.str "u3")]] ∧
      (plan .nestedLoop).Explains (.join requests) (sent .nestedLoop) := by
  intro plan sent
  have hexplains : ∀ strategy requests, (plan strategy).requests = .ok requests →
      (plan strategy).explain = .ok requests.explain ∧
        (plan strategy).Explains requests (sent strategy) := by
    intro strategy requests hrequests
    obtain ⟨htext, -, calls, hcalls, hcalled⟩ :=
      Plan.explains_run hrequests (.finding fun request => Sample.stored request.index) []
    rw [List.nil_append] at hcalls
    rw [← hcalls] at hcalled
    exact ⟨htext, hcalled⟩
  have hhash : (plan .hash).requests = .ok (.join _) := rfl
  have hloop : (plan .nestedLoop).requests = .ok (.join _) := rfl
  obtain ⟨hhashText, hhashExplains⟩ := hexplains .hash _ hhash
  obtain ⟨hloopText, hloopExplains⟩ := hexplains .nestedLoop _ hloop
  have hbatches : sent .nestedLoop = .search (Sample.search "users" "active" (.bool true)) ::
      (NestedLoop.sample.batchesOf (Sample.stored "users")).map .multiSearch := rfl
  rw [NestedLoop.batchesOf_sample] at hbatches
  exact ⟨⟨_, hhash, hhashText, rfl, hhashExplains⟩, _, hloop, hloopText, hbatches, hloopExplains⟩

end SearchJoin
