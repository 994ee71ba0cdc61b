import SearchJoin.Plan
import SearchJoin.Proofs.Backend.Session
import SearchJoin.Proofs.Join.BatchFailure
import SearchJoin.Proofs.Join.EquiJoin
import SearchJoin.Proofs.Join.Final

/-!
# Which errors are retryable

A run ends with a retryable error when a call of it fails, and only then. What the library itself finds
wrong, be it before the first call or in what the backend has answered, is never reported as retryable.

Main statements: `Plan.isRetryable_iff_callFails`; `Plan.exists_error_of_callFails`, no failure of a call
goes unnoticed.
-/

namespace SearchJoin

/-! ## Sessions -/

/-- A search that fails has failed on the way to the backend or back. -/
def Backend.FailsInTransport (backend : Backend) : Prop :=
  ∀ calls request e, backend.search calls request = .error e → ∃ reason, e = .transport reason

namespace Session

variable {α β : Type} {backend : Backend} {calls : List Call} {session : Session α}

/-- A call of the run fails: a search is answered with an error, or a batch that completes has failed,
did not get one answer for each request, or has an answer that says that its search failed. -/
def CallFails (backend : Backend) (calls : List Call) : Session α → Prop
  | .done _ => False
  | .search request next =>
    (∃ e, backend.search calls request = .error e) ∨
      (next (backend.search calls request)).CallFails backend (calls ++ [.search request])
  | .probe permits batches next =>
    (∃ completion ∈ backend.completions calls permits batches,
      NestedLoop.batchFails (batches[completion.batch]?.getD []).length completion.outcome = true) ∨
      (next (backend.completions calls permits batches)).CallFails backend
        (calls ++ batches.map .multiSearch)

/-- The run is over, with an error that is retryable. -/
def EndsRetryably (session : Session α) : Prop :=
  ∃ e, session = .done (.error e) ∧ e.isRetryable = true

/-- Whatever is answered, the run ends with a retryable error as soon as a call has failed, and as long
as none has failed it does not. -/
def BlamesBackend : Session α → Prop
  | .done result => Final result
  | .search _ next =>
    (∀ reason, (next (.error (.transport reason))).EndsRetryably) ∧
      ∀ hits, (next (.ok hits)).BlamesBackend
  | .probe permits batches next =>
    0 < permits ∧ ∀ (outcome : Nat → Outcome) (order : List Nat),
      order.Perm (List.range batches.length) →
        ((∃ batch ∈ order, NestedLoop.fails batches outcome batch = true) →
          (next (order.map fun batch => ⟨batch, outcome batch⟩)).EndsRetryably) ∧
        ((∀ batch ∈ order, NestedLoop.fails batches outcome batch = false) →
          (next (order.map fun batch => ⟨batch, outcome batch⟩)).BlamesBackend)

theorem EndsRetryably.run (h : session.EndsRetryably) :
    ∃ e, (session.run backend calls).1 = .error e ∧ e.isRetryable = true := by
  obtain ⟨e, rfl, he⟩ := h
  exact ⟨e, rfl, he⟩

theorem EndsRetryably.map (h : session.EndsRetryably) (f : α → β) :
    (session.map f).EndsRetryably := by
  obtain ⟨e, rfl, he⟩ := h
  exact ⟨e, rfl, he⟩

/-- Some completion is that of a batch that fails when some batch fails among those that complete. -/
theorem exists_completion_batchFails_iff {batches : List (List Request)} {outcome : Nat → Outcome}
    {order : List Nat} :
    (∃ completion ∈ order.map fun batch => (⟨batch, outcome batch⟩ : Completion),
      NestedLoop.batchFails (batches[completion.batch]?.getD []).length completion.outcome = true) ↔
      ∃ batch ∈ order, NestedLoop.fails batches outcome batch = true := by
  constructor
  · rintro ⟨completion, hcompletion, hfails⟩
    obtain ⟨batch, hbatch, rfl⟩ := List.mem_map.1 hcompletion
    exact ⟨batch, hbatch, hfails⟩
  · rintro ⟨batch, hbatch, hfails⟩
    exact ⟨_, List.mem_map_of_mem hbatch, hfails⟩

/-- By induction on the calls that are still to come: the next one fails, and the run is over, or it
does not fail, and the rest of the run tells. -/
theorem BlamesBackend.run (hbackend : backend.FailsInTransport) (h : session.BlamesBackend) :
    (session.CallFails backend calls →
        ∃ e, (session.run backend calls).1 = .error e ∧ e.isRetryable = true) ∧
      (¬session.CallFails backend calls → Final (session.run backend calls).1) := by
  induction session generalizing calls with
  | done result => exact ⟨fun hfails => hfails.elim, fun _ => h⟩
  | search request next ih =>
    obtain ⟨herror, hok⟩ := h
    rw [Session.run, CallFails]
    cases hanswer : backend.search calls request with
    | error e =>
      obtain ⟨reason, rfl⟩ := hbackend calls request e hanswer
      refine ⟨fun _ => (herror reason).run, fun hnone => ?_⟩
      exact absurd (.inl ⟨_, rfl⟩) hnone
    | ok hits =>
      obtain ⟨hfails, hfinal⟩ := @ih (.ok hits) (calls ++ [.search request]) (hok hits)
      constructor
      · rintro (⟨e, he⟩ | hlater)
        · cases he
        · exact hfails hlater
      · intro hnone
        exact hfinal fun hlater => hnone (.inr hlater)
  | probe permits batches next ih =>
    obtain ⟨hpermits, hprobe⟩ := h
    let outcome : Nat → Outcome := fun batch =>
      backend.multiSearch calls batch (batches[batch]?.getD [])
    let order := backend.order permits batches.length
    have hcompletions : backend.completions calls permits batches =
        order.map fun batch => ⟨batch, outcome batch⟩ := rfl
    obtain ⟨hfailed, hwell⟩ := hprobe outcome order (backend.order_perm hpermits _)
    rw [Session.run, CallFails, hcompletions, exists_completion_batchFails_iff]
    by_cases hsome : ∃ batch ∈ order, NestedLoop.fails batches outcome batch = true
    · exact ⟨fun _ => (hfailed hsome).run, fun hnone => absurd (.inl hsome) hnone⟩
    · have hnone : ∀ batch ∈ order, NestedLoop.fails batches outcome batch = false := by
        intro batch hbatch
        exact Bool.eq_false_iff.2 fun hfails => hsome ⟨batch, hbatch, hfails⟩
      obtain ⟨hfails, hfinal⟩ := @ih _ (calls ++ batches.map .multiSearch) (hwell hnone)
      constructor
      · rintro (hsome' | hlater)
        · exact absurd hsome' hsome
        · exact hfails hlater
      · intro hnot
        exact hfinal fun hlater => hnot (.inr hlater)

theorem BlamesBackend.map (h : session.BlamesBackend) (f : α → β) :
    (session.map f).BlamesBackend := by
  induction session with
  | done result => exact ErrorsIn.map h f
  | search request next ih =>
    exact ⟨fun reason => (h.1 reason).map f, fun hits => ih _ (h.2 hits)⟩
  | probe permits batches next ih =>
    refine ⟨h.1, fun outcome order horder => ?_⟩
    obtain ⟨hfailed, hwell⟩ := h.2 outcome order horder
    exact ⟨fun hsome => (hfailed hsome).map f, fun hnone => ih _ (hwell hnone)⟩

theorem BlamesBackend.ofExcept {step : Except Error α} {next : α → Session β} (hstep : Final step)
    (hnext : ∀ a, step = .ok a → (next a).BlamesBackend) :
    (Session.ofExcept step next).BlamesBackend := by
  cases step with
  | error e => exact .error (hstep e rfl)
  | ok a => exact hnext a rfl

end Session

/-! ## Executions -/

theorem HashJoin.blamesBackend_session (plan : HashJoin) : plan.session.BlamesBackend := by
  unfold session
  split
  · exact .ok []
  · refine .ofExcept (Table.faultsOnly_request _ _ _).final fun request _ => ?_
    refine ⟨fun reason => ⟨_, rfl, rfl⟩, fun build => ?_⟩
    dsimp only [afterBuild]
    split
    · exact .ok []
    · split
      · rename_i e hmismatch
        obtain ⟨key, -, hkey⟩ := List.exists_of_findSome?_eq_some hmismatch
        obtain ⟨first, second, rfl⟩ := exists_of_keyMismatch?_eq_some hkey
        exact .error rfl
      · refine .ofExcept (plan.faultsOnly_probeRequest _).final fun request _ => ?_
        exact ⟨fun reason => ⟨_, rfl, rfl⟩, fun probe => (faultsOnly_collect _ _ _).final⟩

theorem NestedLoop.blamesBackend_session (plan : NestedLoop)
    (hpermits : plan.options.maxConcurrentBatches ≠ 0) : plan.session.BlamesBackend := by
  unfold session
  split
  · exact .ok []
  · refine .ofExcept (Table.faultsOnly_request _ _ _).final fun request _ => ?_
    refine ⟨fun reason => ⟨_, rfl, rfl⟩, fun hits => ?_⟩
    refine .ofExcept (plan.faultsOnly_subRequests hits.hits).final fun pairs _ => ?_
    have hpositive : 0 < plan.options.maxConcurrentBatches.toNat :=
      Nat.pos_of_ne_zero fun hzero => hpermits (UInt64.toNat_inj.1 hzero)
    refine ⟨hpositive, fun outcome order horder => ?_⟩
    rcases probeDocuments_cases outcome horder with
      ⟨hfirst, found, hfound⟩ | ⟨batch, reason, hfirst, hreason⟩
    · constructor
      · rintro ⟨batch, hbatch, hfails⟩
        exact absurd hfails (List.find?_eq_none.1 hfirst batch hbatch)
      · intro hnone
        simp only [hfound, ok_bind]
        exact .ok _
    · constructor
      · intro hsome
        simp only [hreason]
        exact ⟨_, rfl, rfl⟩
      · intro hnone
        have hfails : fails _ outcome batch = true := List.find?_some hfirst
        rw [hnone batch (List.mem_of_find?_eq_some hfirst)] at hfails
        cases hfails

namespace Plan

variable {plan : Plan} {backend : Backend} {calls : List Call}

theorem blamesBackend_session (hpermits : ∀ strategy statement options,
      plan = .join strategy statement options → options.maxConcurrentBatches ≠ 0) :
    plan.session.BlamesBackend := by
  cases plan with
  | select statement =>
    refine .ofExcept statement.faultsOnly_request.final fun request _ => ?_
    exact ⟨fun reason => ⟨_, rfl, rfl⟩, fun hits => .ok _⟩
  | join strategy statement options =>
    cases strategy with
    | hash =>
      refine .ofExcept (HashJoin.final_ofJoin statement options) fun plan _ => ?_
      exact plan.blamesBackend_session.map Output.rows
    | nestedLoop =>
      refine .ofExcept (NestedLoop.faultsOnly_ofJoin statement options).final fun plan hplan => ?_
      have hoptions : plan.options = options := by
        obtain ⟨_, -, hplan⟩ := bind_eq_ok.1 hplan
        cases hplan
        rfl
      refine (plan.blamesBackend_session ?_).map Output.rows
      rw [hoptions]
      exact hpermits .nestedLoop statement options rfl

/-- A run whose call fails ends with an error. -/
theorem exists_error_of_callFails (hbackend : backend.FailsInTransport)
    (hpermits : ∀ strategy statement options,
      plan = .join strategy statement options → options.maxConcurrentBatches ≠ 0)
    (h : plan.session.CallFails backend calls) :
    ∃ e, (plan.session.run backend calls).1 = .error e ∧ e.isRetryable = true :=
  ((blamesBackend_session hpermits).run hbackend).1 h

/-- The error of a run is retryable exactly when a call of the run has failed. -/
theorem isRetryable_iff_callFails (hbackend : backend.FailsInTransport)
    (hpermits : ∀ strategy statement options,
      plan = .join strategy statement options → options.maxConcurrentBatches ≠ 0)
    {e : Error} (h : (plan.session.run backend calls).1 = .error e) :
    e.isRetryable = true ↔ plan.session.CallFails backend calls := by
  obtain ⟨hfails, hfinal⟩ := (blamesBackend_session hpermits).run hbackend
  constructor
  · intro he
    by_contra hnone
    rw [hfinal hnone e h] at he
    cases he
  · intro hcall
    obtain ⟨other, hother, hretryable⟩ := hfails hcall
    rw [h] at hother
    cases hother
    exact hretryable

end Plan

/-- The users are found, and then the connection is refused. -/
def Sample.refusing : Backend :=
  { Backend.finding fun request => Sample.stored request.index with
    search := fun calls request =>
      if calls.isEmpty then .ok (.ofDocuments (Sample.stored request.index))
      else .error (.transport "refused") }

/-- The failure of the second search is retryable. -/
theorem Plan.isRetryable_iff_callFails_sample :
    let plan := Plan.join .hash Sample.join (Sample.options .first none)
    ∃ e, (plan.session.run Sample.refusing []).1 = .error e ∧ e.isRetryable = true ∧
      plan.session.CallFails Sample.refusing [] := by
  intro plan
  have hrefusing : Sample.refusing.FailsInTransport := by
    intro calls request e h
    simp only [Sample.refusing] at h
    split at h
    · cases h
    · cases h
      exact ⟨"refused", rfl⟩
  have hpermits : ∀ strategy statement options, plan = .join strategy statement options →
      options.maxConcurrentBatches ≠ 0 := by
    intro strategy statement options h
    have hoptions : Sample.options .first none = options := (Plan.join.inj h).2.2
    rw [← hoptions]
    decide
  have hrun : (plan.session.run Sample.refusing []).1 =
      .error (.joinSideFailure "b" (Error.transport "refused").message) := rfl
  exact ⟨_, hrun, rfl, (Plan.isRetryable_iff_callFails hrefusing hpermits hrun).1 rfl⟩

end SearchJoin
