import SearchJoin.Proofs.Join.EquiJoin
import SearchJoin.Proofs.Join.Fields

/-!
# Which fields the requests of a hash join fetch

When only some fields of a table are wanted, the requests of a hash join fetch these and the table's
key fields. They do not fetch what the predicate over both tables reads besides.

Main statements: `HashJoin.fieldsNamed_subset_source_iff`, what is fetched is enough for the predicate
over both tables exactly when its fields are wanted or are key fields;
`HashJoin.source_omits_filter_field`, a field that is missing.
-/

namespace SearchJoin

theorem mem_addNew {held added : List String} {s : String} :
    s ∈ addNew held added ↔ s ∈ held ∨ s ∈ added := by
  unfold addNew
  induction added generalizing held with
  | nil => simp
  | cons t added ih =>
    rw [List.foldl_cons, ih, List.mem_cons]
    by_cases ht : t ∈ held
    · rw [if_pos (List.contains_iff_mem.2 ht)]
      constructor
      · rintro (h | h)
        · exact .inl h
        · exact .inr (.inr h)
      · rintro (h | rfl | h)
        · exact .inl h
        · exact .inl ht
        · exact .inr h
    · rw [if_neg fun h => ht (List.contains_iff_mem.1 h), List.mem_append, List.mem_singleton, or_assoc]

/-- A request of a table that fetches only some fields fetches the wanted and the further ones. -/
theorem Table.mem_source_of_request {table : Table} {size : UInt64} {further : List String}
    {request : Request} (h : table.request size further = .ok request) (hsource : request.source ≠ [])
    {field : String} : field ∈ request.source ↔ field ∈ table.fields ∨ field ∈ further := by
  obtain ⟨clauses, -, h⟩ := bind_eq_ok.1 h
  by_cases hfields : table.fields.isEmpty = true
  · rw [if_pos hfields] at h
    rw [← pure_eq_ok.1 h] at hsource
    exact absurd rfl hsource
  · rw [if_neg hfields] at h
    rw [← pure_eq_ok.1 h]
    simp [Request.withSource, mem_addNew]

namespace HashJoin

variable {join : Join} {options : JoinOptions} {plan : HashJoin} {side : Side}

theorem mem_source_of_sideRequest {request : Request} (h : plan.sideRequest side = .ok request)
    (hsource : request.source ≠ []) {field : String} :
    field ∈ request.source ↔ field ∈ (plan.join.table side).fields ∨ field ∈ plan.keyFields side :=
  Table.mem_source_of_request h hsource

/-- The request of the probed side fetches what the table's own request does. -/
theorem exists_sideRequest_of_probeRequest {table : KeyTable} {request : Request}
    (h : plan.probeRequest table = .ok request) :
    ∃ own, plan.sideRequest plan.probeSide = .ok own ∧ request.source = own.source := by
  obtain ⟨own, _, hown, -, rfl⟩ := exists_of_probeRequest_eq_ok h
  exact ⟨own, hown, rfl⟩

/-- A request of a side that fetches only some fields has all fields that the `ON` clause names there.
It has all fields that the predicate over both tables names there exactly when each of them is wanted
or named by the `ON` clause. -/
theorem fieldsNamed_subset_source_iff (hplan : ofJoin join options = .ok plan) {request : Request}
    (hrequest : plan.sideRequest side = .ok request ∨
      side = plan.probeSide ∧ ∃ table, plan.probeRequest table = .ok request)
    (hsource : request.source ≠ []) :
    (∀ field ∈ join.fieldsNamed side join.conditions, field ∈ request.source) ∧
      ((∀ field ∈ join.fieldsNamed side join.filterConditions, field ∈ request.source) ↔
        ∀ field ∈ join.fieldsNamed side join.filterConditions,
          field ∈ (join.table side).fields ∨ field ∈ join.fieldsNamed side join.conditions) := by
  have hown : ∃ own, plan.sideRequest side = .ok own ∧ request.source = own.source := by
    rcases hrequest with hrequest | ⟨rfl, table, hrequest⟩
    · exact ⟨request, hrequest, rfl⟩
    · exact exists_sideRequest_of_probeRequest hrequest
  obtain ⟨own, hown, hsame⟩ := hown
  have hjoin : plan.join = join := by
    obtain ⟨_, -, rfl⟩ := exists_keys_of_ofJoin_eq_ok hplan
    rfl
  have hmem : ∀ field, field ∈ request.source ↔
      field ∈ (join.table side).fields ∨ field ∈ join.fieldsNamed side join.conditions := by
    intro field
    rw [hsame] at hsource ⊢
    rw [mem_source_of_sideRequest hown hsource, hjoin, mem_keyFields_iff hplan]
  refine ⟨fun field hfield => (hmem field).2 (.inr hfield), ?_⟩
  exact forall₂_congr fun field _ => hmem field

end HashJoin

namespace Sample

/-- The names of users with the orders that are not larger than the user's credit. -/
def creditJoin : Join :=
  { join with
    first := { join.first with fields := ["name"] }
    filter := some (.leaf (.fields "b.total" .le "a.credit")) }

end Sample

/-- The credit of a user is read from the hits, but it is not fetched. -/
theorem HashJoin.source_omits_filter_field :
    ∃ plan request, HashJoin.ofJoin Sample.creditJoin (Sample.options .first none) = .ok plan ∧
      plan.sideRequest .first = .ok request ∧ request.source = ["name", "id"] ∧
      "credit" ∈ Sample.creditJoin.fieldsNamed .first Sample.creditJoin.filterConditions ∧
      "credit" ∉ request.source :=
  ⟨_, _, rfl, rfl, rfl, by decide, by decide⟩

/-- The request for the orders fetches all fields; that for the users fetches the key field. -/
theorem HashJoin.fieldsNamed_subset_source_iff_sample :
    ∃ plan request, HashJoin.ofJoin Sample.creditJoin (Sample.options .first none) = .ok plan ∧
      plan.sideRequest .first = .ok request ∧ "id" ∈ request.source ∧
      ¬ ∀ field ∈ Sample.creditJoin.fieldsNamed .first Sample.creditJoin.filterConditions,
        field ∈ request.source := by
  have hplan : HashJoin.ofJoin Sample.creditJoin (Sample.options .first none) =
      .ok ⟨Sample.creditJoin, Sample.options .first none, [⟨"id", "user"⟩]⟩ := rfl
  have hrequest : (⟨Sample.creditJoin, Sample.options .first none, [⟨"id", "user"⟩]⟩ :
      HashJoin).sideRequest .first = .ok _ := rfl
  obtain ⟨hon, hfilter⟩ :=
    HashJoin.fieldsNamed_subset_source_iff hplan (.inl hrequest) (by decide)
  refine ⟨_, _, hplan, rfl, hon "id" (by decide), ?_⟩
  rw [hfilter]
  decide

end SearchJoin
