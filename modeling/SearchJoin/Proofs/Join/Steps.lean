import SearchJoin.Proofs.Join.Checked
import SearchJoin.Proofs.Join.EquiJoin

/-!
# Steps of a hash join that have a result

The probe has a request exactly when the own filter of the probed side has a query and its key fields
have names, whatever keys the build side has. Rows are collected when all pairs can be tested.

Main statements: `HashJoin.isOk_probeRequest_iff`, `HashJoin.exists_collect_eq_ok`.
-/

namespace SearchJoin

theorem Table.isOk_request_iff {table : Table} {size : UInt64} {further : List String} :
    (table.request size further).isOk = true ↔ table.hasQuery = true := by
  constructor
  · intro h
    obtain ⟨request, h⟩ := isOk_iff.1 h
    obtain ⟨clauses, hclauses, -⟩ := bind_eq_ok.1 h
    unfold hasQuery
    cases hfilter : table.filter with
    | none => rfl
    | some filter =>
      rw [hfilter] at hclauses
      have hcompiled : (filter.compile true).isOk = true := isOk_iff.2 ⟨clauses, hclauses⟩
      rw [Predicate.isOk_compile] at hcompiled
      exact hcompiled
  · intro h
    exact Table.isOk_request h size further

namespace HashJoin

variable {plan : HashJoin} {build : List Document}

/-- A table with a key has a part of it at each position, so that there is something to choose from. -/
theorem isOk_partsQuery {fields : List String} {field : String} {position : Nat}
    (hbuild : (KeyTable.ofDocuments fields build).isEmpty = false) (hfield : field ≠ "")
    (hposition : position < fields.length) :
    (partsQuery (KeyTable.ofDocuments fields build) field position).isOk = true := by
  obtain ⟨key, hkey⟩ : ∃ key, key ∈ (KeyTable.ofDocuments fields build).keys := by
    refine List.exists_mem_of_ne_nil _ fun hnil => ?_
    rw [KeyTable.isEmpty, List.map_eq_nil_iff.1 hnil] at hbuild
    cases hbuild
  obtain ⟨doc, -, hdoc⟩ := KeyTable.mem_keys_ofDocuments.1 hkey
  have hlength : fields.length = key.length := (mapM_eq_some_iff.1 hdoc).length_eq
  have hpart : key[position] ∈ (KeyTable.ofDocuments fields build).distinctParts position :=
    KeyTable.mem_distinctParts.2 ⟨key, hkey, List.getElem?_eq_getElem (hlength ▸ hposition)⟩
  refine Condition.isOk_query_isIn hfield (fun hnil => ?_) fun value hvalue => ?_
  · rw [List.map_eq_nil_iff.1 hnil] at hpart
    cases hpart
  · obtain ⟨part, -, rfl⟩ := List.mem_map.1 hvalue
    cases part <;> rfl

/-- Whether the probe can be sent does not depend on the keys, once there is one. -/
theorem isOk_probeRequest_iff (hbuild : (plan.buildTable build).isEmpty = false) :
    (plan.probeRequest (plan.buildTable build)).isOk = true ↔
      (plan.join.table plan.probeSide).hasQuery = true ∧ "" ∉ plan.keyFields plan.probeSide := by
  constructor
  · intro h
    obtain ⟨request, h⟩ := isOk_iff.1 h
    obtain ⟨side, hside, h⟩ := bind_eq_ok.1 h
    obtain ⟨own, -, h⟩ := bind_eq_ok.1 h
    obtain ⟨parts, hparts, -⟩ := bind_eq_ok.1 h
    refine ⟨Table.isOk_request_iff.1 (isOk_iff.2 ⟨side, hside⟩), ?_⟩
    intro hempty
    obtain ⟨position, hposition, hname⟩ := List.getElem_of_mem hempty
    have hmem : ("", position) ∈ (plan.keyFields plan.probeSide).zipIdx := by
      rw [List.mem_zipIdx_iff_getElem?, List.getElem?_eq_getElem hposition, hname]
    obtain ⟨query, hquery⟩ := exists_of_mapM_eq_ok hparts hmem
    obtain ⟨primitive, hprimitive, -⟩ := bind_eq_ok.1 hquery
    cases hprimitive
  · rintro ⟨hown, hnames⟩
    obtain ⟨side, hside⟩ := isOk_iff.1 (Table.isOk_request hown
      (plan.options.limit plan.probeSide) (plan.keyFields plan.probeSide))
    obtain ⟨own, hown⟩ := isOk_iff.1 (isOk_ownQueries hown)
    have hlength : (plan.keyFields plan.probeSide).length =
        (plan.keyFields plan.options.buildSide).length := by
      rw [keyFields, keyFields, List.length_map, List.length_map]
    have hparts : ∀ entry ∈ (plan.keyFields plan.probeSide).zipIdx,
        ∃ query, partsQuery (plan.buildTable build) entry.1 entry.2 = .ok query := by
      rintro ⟨field, position⟩ hmem
      obtain ⟨hposition, hfield⟩ :=
        List.getElem?_eq_some_iff.1 (List.mem_zipIdx_iff_getElem?.1 hmem)
      refine isOk_iff.1 (isOk_partsQuery hbuild ?_ (hlength ▸ hposition))
      intro hempty
      rw [← hfield] at hempty
      exact hnames (hempty ▸ List.getElem_mem hposition)
    obtain ⟨parts, hparts⟩ := exists_mapM_eq_ok hparts
    rw [probeRequest, sideRequest, hside, ok_bind, hown, ok_bind]
    exact isOk_iff.2 ⟨_, bind_eq_ok.2 ⟨parts, hparts, rfl⟩⟩

/-- Rows can be collected from pairs that can all be tested. -/
theorem exists_collect_eq_ok {join : Join} {pairs : List (Document × Document)}
    (h : ∀ pair ∈ pairs, ∃ row, combine join pair = .ok row) (limit : Option Nat) :
    ∃ rows, collect join limit pairs = .ok rows := by
  induction pairs generalizing limit with
  | nil => exact ⟨[], rfl⟩
  | cons pair pairs ih =>
    obtain ⟨⟨row, hrow⟩, hpairs⟩ := List.forall_mem_cons.1 h
    rw [collect]
    split
    · exact ⟨[], rfl⟩
    · rw [hrow, ok_bind]
      cases row with
      | none => exact ih hpairs limit
      | some row =>
        obtain ⟨rows, hrows⟩ := ih hpairs (limit.map (· - 1))
        simp only [hrows]
        exact ⟨_, rfl⟩

/-- Without a limit every pair is tested. -/
theorem exists_combine_eq_ok {join : Join} {pairs : List (Document × Document)} {rows : List Row}
    (h : collect join none pairs = .ok rows) :
    ∀ pair ∈ pairs, ∃ row, combine join pair = .ok row := by
  induction pairs generalizing rows with
  | nil => exact List.forall_mem_nil _
  | cons pair pairs ih =>
    rw [collect, if_neg (by simp)] at h
    obtain ⟨row, hrow, h⟩ := bind_eq_ok.1 h
    refine List.forall_mem_cons.2 ⟨⟨row, hrow⟩, ?_⟩
    cases row with
    | none => exact ih h
    | some row =>
      obtain ⟨rest, hrest, -⟩ := bind_eq_ok.1 h
      exact ih hrest

end HashJoin

end SearchJoin
