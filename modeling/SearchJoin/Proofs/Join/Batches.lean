import SearchJoin.Join.NestedLoop
import SearchJoin.Proofs.Backend.Session

/-!
# Batches of sub-queries

A list is cut into batches without loss, and the answers to the batches are put together in the order
of the batches, in whatever order these complete.

Main statements: `flatten_chunks`, `length_chunks`, `NestedLoop.probeDocuments_eq_ok`.
-/

namespace SearchJoin

/-- Putting the pieces together gives the list back. -/
theorem flatten_chunks {α : Type} (size : Nat) (xs : List α) : (chunks size xs).flatten = xs := by
  fun_induction chunks size xs with
  | case1 => rfl
  | case2 x xs ih => rw [List.flatten_cons, ih, List.cons_append, List.take_append_drop]

/-- No piece is empty, and none is longer than the size. -/
theorem length_of_mem_chunks {α : Type} {size : Nat} (hsize : 0 < size) {xs piece : List α}
    (h : piece ∈ chunks size xs) : 1 ≤ piece.length ∧ piece.length ≤ size := by
  fun_induction chunks size xs with
  | case1 => cases h
  | case2 x xs ih =>
    rcases List.mem_cons.1 h with rfl | h
    · rw [List.length_cons, List.length_take]
      omega
    · exact ih h

/-- There are as many pieces as the length asks for, all full but the last. -/
theorem length_chunks {α : Type} {size : Nat} (hsize : 0 < size) (xs : List α) :
    (chunks size xs).length = (xs.length + size - 1) / size := by
  fun_induction chunks size xs with
  | case1 =>
    rw [List.length_nil, List.length_nil, Nat.zero_add]
    exact (Nat.div_eq_of_lt (by omega)).symm
  | case2 x xs ih =>
    rw [List.length_cons, ih, List.length_drop, List.length_cons]
    have hround : xs.length + 1 + size - 1 = xs.length + size := by omega
    rw [hround, Nat.add_div_right _ hsize]
    by_cases h : size - 1 ≤ xs.length
    · have hfull : xs.length - (size - 1) + size - 1 = xs.length := by omega
      rw [hfull]
    · have hlast : xs.length - (size - 1) + size - 1 = size - 1 := by omega
      rw [hlast, Nat.div_eq_of_lt (by omega : size - 1 < size),
        Nat.div_eq_of_lt (by omega : xs.length < size)]

namespace NestedLoop

/-- The documents of answers that all succeed. -/
theorem documents_of_forall₂ {found : Request → List Document} {requests : List Request}
    {answers : List Answer}
    (h : List.Forall₂ (fun request answer => ∃ total, answer = .hits ⟨total, found request⟩)
      requests answers) :
    documents answers = .ok (requests.map found) := by
  induction h with
  | nil => rfl
  | cons hanswer _ ih =>
    obtain ⟨total, rfl⟩ := hanswer
    rw [documents, ih]
    rfl

/-- A batch whose requests are all answered has the documents of its requests. -/
theorem batchDocuments_of_findsEach {backend : Backend} {found : Request → List Document}
    (h : backend.FindsEach found) (calls : List Call) (batch : Nat) (requests : List Request) :
    batchDocuments requests.length (backend.multiSearch calls batch requests) =
      .ok (requests.map found) := by
  obtain ⟨answers, hanswers, hfound⟩ := h calls batch requests
  rw [hanswers, batchDocuments, if_pos hfound.length_eq.symm]
  exact documents_of_forall₂ hfound

section Gather

variable {batches : List (List Request)} {outcome : Nat → Outcome}
  {held : Nat → List (List Document)} {order : List Nat}

/-- The batches that have completed hold their own documents, in the order of completion. -/
theorem gather_eq_ok (hheld : ∀ batch ∈ order,
      batchDocuments (batches[batch]?.getD []).length (outcome batch) = .ok (held batch)) :
    gather batches (order.map fun batch => ⟨batch, outcome batch⟩) =
      .ok (order.map fun batch => (batch, held batch)) := by
  induction order with
  | nil => rfl
  | cons batch order ih =>
    obtain ⟨hbatch, hrest⟩ := List.forall_mem_cons.1 hheld
    rw [List.map_cons, gather]
    simp only [hbatch, ih hrest]
    rfl

/-- A batch is found under its own number, once it has completed. -/
theorem lookup_held (batch : Nat) :
    (order.map fun batch => (batch, held batch)).lookup batch =
      if batch ∈ order then some (held batch) else none := by
  induction order with
  | nil => rfl
  | cons head order ih =>
    rw [List.map_cons, List.lookup_cons, ih]
    by_cases h : batch = head
    · subst h; simp
    · have hbeq : (batch == head) = false := by simpa using h
      simp [hbeq, h]

/-- The documents are put together in the order of the batches, not in that of the completions. -/
theorem eq_of_probeDocuments_eq_ok (hheld : ∀ batch ∈ order,
      batchDocuments (batches[batch]?.getD []).length (outcome batch) = .ok (held batch))
    {found : List (List Document)}
    (h : probeDocuments batches (order.map fun batch => ⟨batch, outcome batch⟩) = .ok found) :
    found = ((List.range batches.length).map held).flatten := by
  unfold probeDocuments at h
  rw [gather_eq_ok hheld, ok_bind] at h
  obtain ⟨ordered, hordered, h⟩ := bind_eq_ok.1 h
  rw [← pure_eq_ok.1 h]
  have hslots : List.Forall₂ (· = ·) ordered ((List.range batches.length).map held) := by
    refine List.forall₂_map_right_iff.2 ((mapM_eq_ok_iff.1 hordered).flip.imp ?_)
    intro documents batch h
    rw [lookup_held] at h
    by_cases hmem : batch ∈ order
    · rw [if_pos hmem] at h; cases h; rfl
    · rw [if_neg hmem] at h; cases h
  rw [List.forall₂_eq_eq_eq] at hslots
  rw [hslots]

/-- Once every batch has completed all documents are there. -/
theorem probeDocuments_eq_ok (hheld : ∀ batch ∈ order,
      batchDocuments (batches[batch]?.getD []).length (outcome batch) = .ok (held batch))
    (hall : ∀ batch < batches.length, batch ∈ order) :
    probeDocuments batches (order.map fun batch => ⟨batch, outcome batch⟩) =
      .ok ((List.range batches.length).map held).flatten := by
  unfold probeDocuments
  rw [gather_eq_ok hheld, ok_bind]
  refine bind_eq_ok.2 ⟨(List.range batches.length).map held, mapM_eq_ok_iff.2 ?_, rfl⟩
  refine List.forall₂_map_right_iff.2 (List.forall₂_same.2 fun batch h => ?_)
  rw [lookup_held, if_pos (hall batch (List.mem_range.1 h))]

end Gather

/-- The documents of all batches, taken in order, are those of all requests. -/
theorem flatten_range_map (batches : List (List Request)) (found : Request → List Document) :
    ((List.range batches.length).map fun batch => (batches[batch]?.getD []).map found).flatten =
      batches.flatten.map found := by
  have hbatches : (List.range batches.length).map (fun batch => batches[batch]?.getD []) =
      batches := by
    refine List.ext_getElem (by simp) fun i h _ => ?_
    have hi : i < batches.length := by simpa using h
    simp [hi]
  rw [List.map_flatten]
  conv_rhs => rw [← hbatches, List.map_map]
  rfl

end NestedLoop

end SearchJoin
