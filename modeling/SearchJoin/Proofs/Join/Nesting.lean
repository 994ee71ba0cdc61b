import SearchJoin.Proofs.Join.Batches
import SearchJoin.Proofs.Join.EquiJoin

/-!
# What a nested loop computes

The rows of a nested loop are, for each row of the first table that can match, the documents that its
own sub-query finds. How the sub-queries are put into batches, how many batches are in flight at once
and in which order they complete makes no difference.

Main statement: `run_session_withBatching`.
-/

namespace SearchJoin.NestedLoop

/-- The same join with other batches. -/
def withBatching (plan : NestedLoop) (size permits : UInt64) : NestedLoop :=
  { plan with
    options := { plan.options with batchSize := size, maxConcurrentBatches := permits } }

/-- The rows of the first table that can match, each with its sub-query. -/
def matchable (plan : NestedLoop) (rows : List Document) : List (Document × Request) :=
  rows.filterMap fun row =>
    match plan.subRequest row with
    | .ok (some request) => some (row, request)
    | _ => none

/-- The rows of a join whose sub-queries find the documents `found`. -/
def loopRows (plan : NestedLoop) (found : Request → List Document) (rows : List Document) :
    List Row :=
  (plan.matchable rows).flatMap fun (first, request) =>
    (found request).map fun second => plan.join.mergePair (first, second)

/-- Sub-queries are made for the rows that can match, unless one of them fails. -/
theorem subRequests_eq_ok {plan : NestedLoop} {rows : List Document}
    (h : ∀ row ∈ rows, ∃ sub, plan.subRequest row = .ok sub) :
    plan.subRequests rows = .ok (plan.matchable rows) := by
  induction rows with
  | nil => rfl
  | cons row rows ih =>
    obtain ⟨sub, hsub⟩ := h row List.mem_cons_self
    have hrows := ih fun row hrow => h row (List.mem_cons_of_mem _ hrow)
    rw [subRequests, hsub, ok_bind, matchable, List.filterMap_cons, hsub]
    cases sub with
    | none => exact hrows
    | some request => simp only [hrows]; rfl

theorem exists_of_subRequests_eq_ok {plan : NestedLoop} {rows : List Document}
    {pairs : List (Document × Request)} (h : plan.subRequests rows = .ok pairs) :
    ∀ row ∈ rows, ∃ sub, plan.subRequest row = .ok sub := by
  induction rows generalizing pairs with
  | nil => intro row hrow; cases hrow
  | cons head rows ih =>
    rw [subRequests] at h
    obtain ⟨sub, hsub, h⟩ := bind_eq_ok.1 h
    intro row hrow
    rcases List.mem_cons.1 hrow with rfl | hrow
    · exact ⟨sub, hsub⟩
    · cases sub with
      | none => exact ih h row hrow
      | some request =>
        obtain ⟨rest, hrest, -⟩ := bind_eq_ok.1 h
        exact ih hrest row hrow

/-- Rows and documents are paired by position, and both come from the same list of sub-queries. -/
theorem mergeRows_matchable (plan : NestedLoop) (found : Request → List Document)
    (rows : List Document) :
    mergeRows plan.join ((plan.matchable rows).map Prod.fst)
      (((plan.matchable rows).map Prod.snd).map found) = plan.loopRows found rows := by
  unfold loopRows mergeRows
  induction plan.matchable rows with
  | nil => rfl
  | cons pair pairs ih => simpa [Join.mergePair] using ih

variable {plan : NestedLoop} {backend : Backend} {calls : List Call}

/-- The batches of the sub-queries for rows of the first table. -/
def batchesOf (plan : NestedLoop) (rows : List Document) : List (List Request) :=
  chunks plan.options.batchSize.toNat ((plan.matchable rows).map Prod.snd)

/-- The run of a join whose driving rows are found and have sub-queries that do not fail. -/
theorem run_session {request : Request} {drive : Hits}
    (hlimit : plan.options.totalLimit ≠ some 0) (hrequest : plan.driveRequest = .ok request)
    (hdrive : backend.search calls request = .ok drive)
    (hsub : ∀ row ∈ drive.hits, ∃ sub, plan.subRequest row = .ok sub) :
    plan.session.run backend calls =
      (do
        let found ← probeDocuments (plan.batchesOf drive.hits)
          (backend.completions (calls ++ [.search request])
            plan.options.maxConcurrentBatches.toNat (plan.batchesOf drive.hits))
        return limited plan.options.totalLimit
          (mergeRows plan.join ((plan.matchable drive.hits).map Prod.fst) found),
      calls ++ .search request :: (plan.batchesOf drive.hits).map .multiSearch) := by
  rw [session, if_neg hlimit, hrequest, Session.run_ofExcept_ok, Session.run, hdrive]
  simp only [afterDrive]
  rw [subRequests_eq_ok hsub, Session.run_ofExcept_ok, Session.run, Session.run,
    List.append_assoc]
  rfl

/-- A backend that answers each sub-query by itself gives every batch its own documents. -/
theorem eq_of_probeDocuments_completions {found : Request → List Document}
    (hfound : backend.FindsEach found) {permits : Nat} {batches : List (List Request)}
    {documents : List (List Document)}
    (h : probeDocuments batches (backend.completions calls permits batches) = .ok documents) :
    documents = batches.flatten.map found := by
  rw [eq_of_probeDocuments_eq_ok (fun batch _ => batchDocuments_of_findsEach hfound calls batch _) h,
    flatten_range_map]

/-- With a permit every batch completes, so all documents are there in the end. -/
theorem probeDocuments_completions {found : Request → List Document}
    (hfound : backend.FindsEach found) {permits : Nat} (hpermits : 0 < permits)
    (batches : List (List Request)) :
    probeDocuments batches (backend.completions calls permits batches) =
      .ok (batches.flatten.map found) := by
  have hall : ∀ batch < batches.length, batch ∈ backend.order permits batches.length := by
    intro batch hbatch
    exact (backend.order_perm hpermits batches.length).symm.subset (List.mem_range.2 hbatch)
  rw [← flatten_range_map]
  exact probeDocuments_eq_ok (fun batch _ => batchDocuments_of_findsEach hfound calls batch _) hall

/-- The run of a join whose sub-queries are all answered. -/
theorem run_session_of_findsEach (plan : NestedLoop) {request : Request} {drive : Hits}
    {found : Request → List Document} (hpermits : 0 < plan.options.maxConcurrentBatches.toNat)
    (hlimit : plan.options.totalLimit ≠ some 0) (hrequest : plan.driveRequest = .ok request)
    (hdrive : backend.search calls request = .ok drive)
    (hsub : ∀ row ∈ drive.hits, ∃ sub, plan.subRequest row = .ok sub)
    (hfound : backend.FindsEach found) :
    plan.session.run backend calls =
      (.ok (limited plan.options.totalLimit (plan.loopRows found drive.hits)),
        calls ++ .search request :: (plan.batchesOf drive.hits).map .multiSearch) := by
  rw [run_session hlimit hrequest hdrive hsub, probeDocuments_completions hfound hpermits, ok_bind,
    batchesOf, flatten_chunks, mergeRows_matchable]
  rfl

/-- A run with a result has found the rows of the first table, and made their sub-queries. -/
theorem exists_of_run_session_eq_ok {found : Request → List Document}
    (hfound : backend.FindsEach found) {rows : List Row}
    (hlimit : plan.options.totalLimit ≠ some 0)
    (hrun : (plan.session.run backend calls).1 = .ok rows) :
    ∃ request drive, plan.driveRequest = .ok request ∧
      backend.search calls request = .ok drive ∧
      (∀ row ∈ drive.hits, ∃ sub, plan.subRequest row = .ok sub) ∧
      rows = limited plan.options.totalLimit (plan.loopRows found drive.hits) := by
  -- The run is read twice, up to the sub-queries and as a whole.
  have hrun' := hrun
  rw [session, if_neg hlimit] at hrun
  obtain ⟨request, hrequest, hrun⟩ := Session.run_ofExcept_eq_ok.1 hrun
  rw [Session.run] at hrun
  cases hdrive : backend.search calls request with
  | error e => rw [hdrive] at hrun; cases hrun
  | ok drive =>
    rw [hdrive] at hrun
    obtain ⟨pairs, hpairs, -⟩ := Session.run_ofExcept_eq_ok.1 hrun
    have hsub := exists_of_subRequests_eq_ok hpairs
    refine ⟨request, drive, hrequest, hdrive, hsub, ?_⟩
    rw [run_session hlimit hrequest hdrive hsub] at hrun'
    obtain ⟨documents, hdocuments, hrows⟩ := bind_eq_ok.1 hrun'
    rw [← pure_eq_ok.1 hrows, eq_of_probeDocuments_completions hfound hdocuments, batchesOf,
      flatten_chunks, mergeRows_matchable]

/-- Batches of any size, any number of permits and any schedule give the same rows: those of the
sub-queries of the rows of the first table, in the order of these rows. Every sub-query is sent once,
in batches that are not empty and not longer than the size. -/
theorem run_session_withBatching {size permits : UInt64} {request : Request} {drive : Hits}
    {found : Request → List Document} (hsize : size ≠ 0) (hpermits : permits ≠ 0)
    (hlimit : plan.options.totalLimit ≠ some 0) (hrequest : plan.driveRequest = .ok request)
    (hdrive : backend.search calls request = .ok drive)
    (hsub : ∀ row ∈ drive.hits, ∃ sub, plan.subRequest row = .ok sub)
    (hfound : backend.FindsEach found) :
    ∃ batches : List (List Request),
      (plan.withBatching size permits).session.run backend calls =
        (.ok (limited plan.options.totalLimit (plan.loopRows found drive.hits)),
          calls ++ .search request :: batches.map .multiSearch) ∧
      batches.flatten = (plan.matchable drive.hits).map Prod.snd ∧
      (∀ batch ∈ batches, 1 ≤ batch.length ∧ batch.length ≤ size.toNat) ∧
      batches.length = ((plan.matchable drive.hits).length + size.toNat - 1) / size.toNat := by
  have hsize' : 0 < size.toNat := by
    have hne : size.toNat ≠ 0 := fun h => hsize (UInt64.toNat_inj.1 h)
    omega
  have hpermits' : 0 < permits.toNat := by
    have hne : permits.toNat ≠ 0 := fun h => hpermits (UInt64.toNat_inj.1 h)
    omega
  refine ⟨(plan.withBatching size permits).batchesOf drive.hits, ?_, flatten_chunks _ _,
    fun batch hbatch => length_of_mem_chunks hsize' hbatch, ?_⟩
  · exact run_session_of_findsEach (plan.withBatching size permits) hpermits' hlimit hrequest hdrive
      hsub hfound
  · have hlength := length_chunks hsize' ((plan.matchable drive.hits).map Prod.snd)
    rw [List.length_map] at hlength
    exact hlength

/-- The join of the example by a nested loop. -/
def sample : NestedLoop := ⟨Sample.join, Sample.options .first none⟩

theorem batchesOf_sample :
    sample.batchesOf (Sample.stored "users") =
      [[Sample.search "orders" "user" (.str "u1"), Sample.search "orders" "user" (.str "u2")],
        [Sample.search "orders" "user" (.str "u3")]] := by
  have hsubs : (sample.matchable (Sample.stored "users")).map Prod.snd =
      [Sample.search "orders" "user" (.str "u1"), Sample.search "orders" "user" (.str "u2"),
        Sample.search "orders" "user" (.str "u3")] := rfl
  have hsize : sample.options.batchSize.toNat = 2 := rfl
  rw [batchesOf, hsubs, hsize]
  simp [chunks]

/-- The three users who have an identifier get a sub-query each, in batches of two, the second of which completes
first. The backend finds all orders for every one of them. -/
theorem run_session_withBatching_sample :
    (sample.withBatching 2 3).session.run (.finding fun request => Sample.stored request.index) [] =
      (.ok ([Sample.user (some "u1") true, Sample.user (some "u2") false, Sample.user (some "u3") true].flatMap
          fun user => (Sample.stored "orders").map fun order => Sample.join.mergePair (user, order)),
        [.search (Sample.search "users" "active" (.bool true)),
          .multiSearch [Sample.search "orders" "user" (.str "u1"), Sample.search "orders" "user" (.str "u2")],
          .multiSearch [Sample.search "orders" "user" (.str "u3")]]) := by
  have hsub : ∀ row ∈ Sample.stored "users", ∃ sub, sample.subRequest row = .ok sub := by
    simp only [Sample.stored, if_true, List.forall_mem_cons]
    exact ⟨⟨_, rfl⟩, ⟨_, rfl⟩, ⟨_, rfl⟩, ⟨_, rfl⟩, List.forall_mem_nil _⟩
  obtain ⟨batches, hrun, -⟩ :=
    @run_session_withBatching sample (.finding fun request => Sample.stored request.index) [] 2 3 _ _
      _ (by decide) (by decide) (by decide) rfl rfl hsub (Backend.findsEach_finding _)
  have hcalls : ((sample.withBatching 2 3).session.run
      (.finding fun request => Sample.stored request.index) []).2 =
        .search (Sample.search "users" "active" (.bool true)) ::
          (sample.batchesOf (Sample.stored "users")).map .multiSearch := rfl
  rw [batchesOf_sample] at hcalls
  refine Prod.ext ?_ hcalls
  rw [hrun]
  rfl

end SearchJoin.NestedLoop
