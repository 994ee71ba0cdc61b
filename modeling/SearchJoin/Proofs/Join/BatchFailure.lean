import SearchJoin.Proofs.Join.Batches

/-!
# Batches that fail

A batch fails when its call fails, when it does not get one answer for each request, or when one of the
answers says that its search failed. The probe has a result exactly when no batch fails; else it reports
the batch that failed first in the order of completion.

Main statement: `NestedLoop.probeDocuments_reports_failures`.
-/

namespace SearchJoin

/-- The answer says that its search failed. -/
def Answer.isFailed : Answer → Bool
  | .hits _ => false
  | .failed _ => true

namespace NestedLoop

/-- A batch of `size` requests with this outcome fails. -/
def batchFails (size : Nat) : Outcome → Bool
  | .error _ => true
  | .ok answers => answers.length != size || answers.any Answer.isFailed

theorem exists_documents_eq_ok_iff {answers : List Answer} :
    (∃ found, documents answers = .ok found) ↔ answers.any Answer.isFailed = false := by
  induction answers with
  | nil => simp [documents]
  | cons answer answers ih =>
    rw [List.any_cons]
    cases answer with
    | failed reason => simp [documents, Answer.isFailed]
    | hits hits =>
      rw [documents, Answer.isFailed, Bool.false_or, ← ih]
      constructor
      · rintro ⟨found, h⟩
        obtain ⟨rest, hrest, -⟩ := bind_eq_ok.1 h
        exact ⟨rest, hrest⟩
      · rintro ⟨rest, hrest⟩
        exact ⟨hits.hits :: rest, by rw [hrest]; rfl⟩

theorem exists_batchDocuments_eq_ok_iff {size : Nat} {outcome : Outcome} :
    (∃ found, batchDocuments size outcome = .ok found) ↔ batchFails size outcome = false := by
  cases outcome with
  | error e => simp [batchDocuments, batchFails]
  | ok answers =>
    rw [batchDocuments, batchFails]
    by_cases hlength : answers.length = size
    · rw [if_pos hlength, exists_documents_eq_ok_iff]
      simp [hlength]
    · rw [if_neg hlength]
      simp [hlength]

section Completions

variable {batches : List (List Request)} {outcome : Nat → Outcome} {order : List Nat}

/-- The batch of this number fails. -/
def fails (batches : List (List Request)) (outcome : Nat → Outcome) (batch : Nat) : Bool :=
  batchFails (batches[batch]?.getD []).length (outcome batch)

/-- Batches that complete before the first failure do not hide it, and later ones are not looked at. -/
theorem gather_eq_error {batch : Nat} (h : order.find? (fails batches outcome) = some batch) :
    ∃ reason, gather batches (order.map fun batch => ⟨batch, outcome batch⟩) =
      .error (.probeBatchFailure batch reason) := by
  induction order with
  | nil => cases h
  | cons head order ih =>
    rw [List.map_cons, gather]
    cases hdocuments : batchDocuments (batches[head]?.getD []).length (outcome head) with
    | error reason =>
      have hfails : fails batches outcome head = true := by
        rw [← Bool.not_eq_false]
        intro hnot
        obtain ⟨found, hfound⟩ := exists_batchDocuments_eq_ok_iff.2 hnot
        rw [hdocuments] at hfound
        cases hfound
      rw [List.find?_cons_of_pos hfails] at h
      cases h
      exact ⟨reason, rfl⟩
    | ok found =>
      have hnot : fails batches outcome head = false :=
        exists_batchDocuments_eq_ok_iff.1 ⟨found, hdocuments⟩
      rw [List.find?_cons_of_neg (by rw [hnot]; exact Bool.false_ne_true)] at h
      obtain ⟨reason, hreason⟩ := ih h
      exact ⟨reason, by simp only [hreason]; rfl⟩

/-- Without a failure every batch that completes fills its own place, so that none is missing. -/
theorem exists_probeDocuments_eq_ok (hnone : ∀ batch ∈ order, fails batches outcome batch = false)
    (hall : ∀ batch < batches.length, batch ∈ order) :
    ∃ found, probeDocuments batches (order.map fun batch => ⟨batch, outcome batch⟩) = .ok found := by
  have hheld : ∀ batch, ∃ found, batch ∈ order →
      batchDocuments (batches[batch]?.getD []).length (outcome batch) = .ok found := by
    intro batch
    by_cases hmem : batch ∈ order
    · obtain ⟨found, hfound⟩ := exists_batchDocuments_eq_ok_iff.2 (hnone batch hmem)
      exact ⟨found, fun _ => hfound⟩
    · exact ⟨[], fun h => absurd h hmem⟩
  choose held hheld using hheld
  exact ⟨_, probeDocuments_eq_ok hheld hall⟩

/-- When all batches complete, each once, the probe has a result or reports the first failure. -/
theorem probeDocuments_cases (outcome : Nat → Outcome)
    (horder : order.Perm (List.range batches.length)) :
    (order.find? (fails batches outcome) = none ∧
        ∃ found, probeDocuments batches (order.map fun batch => ⟨batch, outcome batch⟩) =
          .ok found) ∨
      ∃ batch reason, order.find? (fails batches outcome) = some batch ∧
        probeDocuments batches (order.map fun batch => ⟨batch, outcome batch⟩) =
          .error (.probeBatchFailure batch reason) := by
  cases hfirst : order.find? (fails batches outcome) with
  | none =>
    have hnone : ∀ batch ∈ order, fails batches outcome batch = false := by
      intro batch hmem
      exact Bool.eq_false_iff.2 (List.find?_eq_none.1 hfirst batch hmem)
    exact .inl ⟨rfl, exists_probeDocuments_eq_ok hnone fun batch hbatch =>
      horder.symm.subset (List.mem_range.2 hbatch)⟩
  | some batch =>
    obtain ⟨reason, hreason⟩ := gather_eq_error hfirst
    exact .inr ⟨batch, reason, rfl, by rw [probeDocuments, hreason]; rfl⟩

end Completions

/-- However requests are put into batches, whatever becomes of each batch and in whatever order all of
them complete: the probe has a result exactly when no batch fails. Else it reports a batch, the one that
failed first in the order of completion, and so the lowest one when batches complete in the order in
which they were sent. A batch never counts as not completed. -/
theorem probeDocuments_reports_failures (size : Nat) (requests : List Request)
    (outcome : Nat → Outcome) {order : List Nat}
    (horder : order.Perm (List.range (chunks size requests).length)) :
    let batches := chunks size requests
    let result := probeDocuments batches (order.map fun batch => ⟨batch, outcome batch⟩)
    ((∃ found, result = .ok found) ↔
        ∀ batch < batches.length, fails batches outcome batch = false) ∧
      (∀ e, result = .error e → ∃ batch reason, e = .probeBatchFailure batch reason ∧
        order.find? (fails batches outcome) = some batch) ∧
      (order = List.range batches.length → ∀ batch reason,
        result = .error (.probeBatchFailure batch reason) →
          fails batches outcome batch = true ∧
            ∀ lower < batch, fails batches outcome lower = false) ∧
      ∀ reason, result ≠ .error (.internal reason) := by
  intro batches result
  have hmem : ∀ batch, batch ∈ order ↔ batch < batches.length := fun batch => by
    rw [horder.mem_iff, List.mem_range]
  rcases probeDocuments_cases outcome horder with
    ⟨hfirst, found, hfound⟩ | ⟨first, reason, hfirst, hreason⟩
  · have hresult : result = .ok found := hfound
    refine ⟨⟨fun _ batch hbatch => ?_, fun _ => ⟨found, hresult⟩⟩, fun e he => ?_,
      fun _ batch reason he => ?_, fun reason he => ?_⟩
    · exact Bool.eq_false_iff.2 (List.find?_eq_none.1 hfirst batch ((hmem batch).2 hbatch))
    all_goals rw [hresult] at he; cases he
  · have hresult : result = .error (.probeBatchFailure first reason) := hreason
    have hfails : fails batches outcome first = true := List.find?_some hfirst
    refine ⟨⟨?_, fun hnone => ?_⟩, fun e he => ?_, fun hsubmitted batch other he => ?_,
      fun other he => ?_⟩
    · rintro ⟨found, hfound⟩
      rw [hresult] at hfound
      cases hfound
    · have hbatch := (hmem first).1 (List.mem_of_find?_eq_some hfirst)
      rw [hnone first hbatch] at hfails
      cases hfails
    · rw [hresult] at he
      cases he
      exact ⟨first, reason, rfl, hfirst⟩
    · rw [hresult] at he
      cases he
      refine ⟨hfails, fun lower hlower => ?_⟩
      rw [hsubmitted, List.find?_range_eq_some] at hfirst
      have hlower' := hfirst.2.2 lower hlower
      rwa [Bool.not_eq_true'] at hlower'
    · rw [hresult] at he
      cases he

/-- Of two batches that fail, the second completes first and is reported. -/
theorem probeDocuments_reports_failures_sample :
    ∃ requests : List Request, ∃ reason,
      [1, 0].Perm (List.range (chunks 2 requests).length) ∧
        probeDocuments (chunks 2 requests)
          [⟨1, .error (.transport "refused")⟩,
            ⟨0, .ok [.hits ⟨0, []⟩, .failed "no such field"]⟩] =
            .error (.probeBatchFailure 1 reason) := by
  let request : Request := { index := "orders", query := .matchAll }
  let outcome : Nat → Outcome := fun batch =>
    if batch = 0 then .ok [.hits ⟨0, []⟩, .failed "no such field"] else .error (.transport "refused")
  have hchunks : chunks 2 [request, request, request] = [[request, request], [request]] := by
    simp [chunks]
  have horder : [1, 0].Perm (List.range (chunks 2 [request, request, request]).length) := by
    rw [hchunks]
    decide
  obtain ⟨hok, herror, -⟩ :=
    probeDocuments_reports_failures 2 [request, request, request] outcome horder
  rw [hchunks] at hok herror horder
  cases hresult : probeDocuments [[request, request], [request]]
      ([1, 0].map fun batch => ⟨batch, outcome batch⟩) with
  | ok found =>
    have hnone := hok.1 ⟨found, hresult⟩ 0 (by decide)
    cases hnone
  | error e =>
    obtain ⟨batch, reason, rfl, hfirst⟩ := herror e hresult
    cases hfirst
    refine ⟨[request, request, request], reason, ?_, ?_⟩
    · rw [hchunks]
      exact horder
    · rw [hchunks]
      exact hresult

end NestedLoop

end SearchJoin
