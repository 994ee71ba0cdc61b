import SearchJoin.Proofs.Join.KeyTable

/-!
# The key table as an index

Every document with a key stands in the rows of this key and of no other, the rows of a key ascend, and
the documents without a key are counted. So the rows can be taken for positions in the list of documents
without a further test, and no document is lost.

Main statement: `KeyTable.indexes_ofDocuments`.
-/

namespace SearchJoin.KeyTable

variable {fields : List String} {docs : List Document} {key : Key} {row : Nat}

/-! ## Rows -/

/-- The numbers of the documents that pass a test. -/
def numbers (passes : Document → Bool) (docs : List Document) : List Nat :=
  (docs.zipIdx.filter fun entry => passes entry.1).map Prod.snd

variable {passes : Document → Bool}

theorem mem_numbers :
    row ∈ numbers passes docs ↔ ∃ h : row < docs.length, passes docs[row] = true := by
  unfold numbers
  rw [List.mem_map]
  constructor
  · rintro ⟨⟨doc, number⟩, hentry, rfl⟩
    obtain ⟨hmem, hpasses⟩ := List.mem_filter.1 hentry
    obtain ⟨hrow, hdoc⟩ := List.getElem?_eq_some_iff.1 (List.mem_zipIdx_iff_getElem?.1 hmem)
    exact ⟨hrow, hdoc ▸ hpasses⟩
  · rintro ⟨hrow, hpasses⟩
    have hmem : (docs[row], row) ∈ docs.zipIdx :=
      List.mem_zipIdx_iff_getElem?.2 (List.getElem?_eq_getElem hrow)
    exact ⟨(docs[row], row), List.mem_filter.2 ⟨hmem, hpasses⟩, rfl⟩

/-- The numbers of all documents ascend, and so do those of some of them. -/
theorem pairwise_numbers (passes : Document → Bool) (docs : List Document) :
    (numbers passes docs).Pairwise (· < ·) := by
  have hsublist : (numbers passes docs).Sublist (docs.zipIdx.map Prod.snd) :=
    List.filter_sublist.map Prod.snd
  rw [List.zipIdx_map_snd] at hsublist
  exact (List.pairwise_lt_range').sublist hsublist

theorem length_numbers (passes : Document → Bool) (docs : List Document) :
    (numbers passes docs).length = docs.countP passes := by
  conv_rhs => rw [← List.zipIdx_map_fst 0 docs, List.countP_map]
  rw [numbers, List.length_map, List.countP_eq_length_filter]
  rfl

theorem rows_eq_numbers (fields : List String) (docs : List Document) (key : Key) :
    (ofDocuments fields docs).rows key =
      numbers (fun doc => Key.ofDocument? fields doc = some key) docs :=
  rows_ofDocuments fields docs key

theorem mem_rows_ofDocuments :
    row ∈ (ofDocuments fields docs).rows key ↔
      ∃ h : row < docs.length, Key.ofDocument? fields docs[row] = some key := by
  rw [rows_eq_numbers, mem_numbers]
  simp only [decide_eq_true_iff]

theorem rows_ofDocuments_eq_nil :
    (ofDocuments fields docs).rows key = [] ↔ key ∉ (ofDocuments fields docs).keys := by
  rw [List.eq_nil_iff_forall_not_mem, mem_keys_ofDocuments]
  constructor
  · rintro h ⟨doc, hdoc, hkey⟩
    obtain ⟨row, hrow, rfl⟩ := List.getElem_of_mem hdoc
    exact h row (mem_rows_ofDocuments.2 ⟨hrow, hkey⟩)
  · intro h row hrow
    obtain ⟨hlt, hkey⟩ := mem_rows_ofDocuments.1 hrow
    exact h ⟨docs[row], List.getElem_mem hlt, hkey⟩

/-! ## All rows together -/

/-- A document with a key is in the rows of this key, and every row is a document with a key. -/
theorem mem_flatMap_rows :
    row ∈ (ofDocuments fields docs).keys.flatMap (ofDocuments fields docs).rows ↔
      ∃ h : row < docs.length, (Key.ofDocument? fields docs[row]).isSome = true := by
  rw [List.mem_flatMap]
  constructor
  · rintro ⟨key, -, hrow⟩
    obtain ⟨hlt, hkey⟩ := mem_rows_ofDocuments.1 hrow
    exact ⟨hlt, Option.isSome_iff_exists.2 ⟨key, hkey⟩⟩
  · rintro ⟨hlt, hsome⟩
    obtain ⟨key, hkey⟩ := Option.isSome_iff_exists.1 hsome
    have hmem := mem_keys_ofDocuments.2 ⟨docs[row], List.getElem_mem hlt, hkey⟩
    exact ⟨key, hmem, mem_rows_ofDocuments.2 ⟨hlt, hkey⟩⟩

/-- No row stands under two keys, or twice under one. -/
theorem nodup_flatMap_rows (fields : List String) (docs : List Document) :
    ((ofDocuments fields docs).keys.flatMap (ofDocuments fields docs).rows).Nodup := by
  refine List.nodup_flatMap.2 ⟨fun key _ => ?_, ?_⟩
  · rw [rows_eq_numbers]
    exact (pairwise_numbers _ docs).imp Nat.ne_of_lt
  · refine (firstSeen_keys_ofDocuments fields docs).nodup.imp fun {key other} hne row hrow hrow' => ?_
    obtain ⟨hlt, hkey⟩ := mem_rows_ofDocuments.1 hrow
    obtain ⟨hlt', hother⟩ := mem_rows_ofDocuments.1 hrow'
    exact hne (Option.some.inj (hkey.symm.trans hother))

/-- The rows of all keys are the numbers of the documents that have one. -/
theorem flatMap_rows_perm (fields : List String) (docs : List Document) :
    ((ofDocuments fields docs).keys.flatMap (ofDocuments fields docs).rows).Perm
      (numbers (fun doc => (Key.ofDocument? fields doc).isSome) docs) := by
  refine (List.perm_ext_iff_of_nodup (nodup_flatMap_rows fields docs) ?_).2 fun row => ?_
  · exact (pairwise_numbers _ docs).imp Nat.ne_of_lt
  · rw [mem_flatMap_rows, mem_numbers]

theorem skipped_eq_countP (fields : List String) (docs : List Document) :
    skipped fields docs = docs.countP fun doc => (Key.ofDocument? fields doc).isNone :=
  (List.countP_eq_length_filter).symm

/-- A document stands in one row, or it is counted as one without a key. -/
theorem length_flatMap_rows_add_skipped (fields : List String) (docs : List Document) :
    ((ofDocuments fields docs).keys.flatMap (ofDocuments fields docs).rows).length +
      skipped fields docs = docs.length := by
  rw [(flatMap_rows_perm fields docs).length_eq, length_numbers, skipped_eq_countP,
    List.length_eq_countP_add_countP fun doc => (Key.ofDocument? fields doc).isSome]
  simp only [decide_not, Bool.decide_eq_true, Option.not_isSome]

/-- A table is an exact index of documents by key fields, and this many documents have no key. -/
structure Indexes (table : KeyTable) (skipped : Nat) (fields : List String) (docs : List Document) :
    Prop where
  /-- No key is listed twice. -/
  keys_nodup : table.keys.Nodup
  /-- The keys are those of the documents, in the order in which they are first seen. -/
  keys_firstSeen : FirstSeen table.keys (docs.filterMap (Key.ofDocument? fields))
  /-- The rows of a key ascend strictly. -/
  rows_pairwise : ∀ key, (table.rows key).Pairwise (· < ·)
  /-- The rows of a key are the numbers of the documents that have it. -/
  mem_rows : ∀ key row, row ∈ table.rows key ↔
    ∃ h : row < docs.length, Key.ofDocument? fields docs[row] = some key
  /-- The keys without rows are those that are not listed. -/
  rows_eq_nil : ∀ key, table.rows key = [] ↔ key ∉ table.keys
  /-- The documents without a full key are counted. -/
  skipped_eq : skipped = docs.countP fun doc => (Key.ofDocument? fields doc).isNone
  /-- No row stands under two keys. -/
  flatMap_rows_nodup : (table.keys.flatMap table.rows).Nodup
  /-- The documents with a key are those that stand under some key. -/
  mem_flatMap_rows : ∀ row, row ∈ table.keys.flatMap table.rows ↔
    ∃ h : row < docs.length, (Key.ofDocument? fields docs[row]).isSome = true
  /-- Every document stands under a key or is counted. -/
  length_add_skipped : (table.keys.flatMap table.rows).length + skipped = docs.length
  /-- No part is listed twice at a position. -/
  parts_nodup : ∀ position, (table.distinctParts position).Nodup
  /-- The parts at a position are those of the keys, in the order in which they are first seen. -/
  parts_firstSeen : ∀ position,
    FirstSeen (table.distinctParts position) (table.keys.filterMap fun key => key[position]?)

/-- The table of documents is an exact index of them. -/
theorem indexes_ofDocuments (fields : List String) (docs : List Document) :
    (ofDocuments fields docs).Indexes (skipped fields docs) fields docs where
  keys_nodup := (firstSeen_keys_ofDocuments fields docs).nodup
  keys_firstSeen := firstSeen_keys_ofDocuments fields docs
  rows_pairwise key := by
    rw [rows_eq_numbers]
    exact pairwise_numbers _ docs
  mem_rows _ _ := mem_rows_ofDocuments
  rows_eq_nil _ := rows_ofDocuments_eq_nil
  skipped_eq := skipped_eq_countP fields docs
  flatMap_rows_nodup := nodup_flatMap_rows fields docs
  mem_flatMap_rows _ := mem_flatMap_rows
  length_add_skipped := length_flatMap_rows_add_skipped fields docs
  parts_nodup _ := (firstSeen_distinct _).nodup
  parts_firstSeen _ := firstSeen_distinct _

end SearchJoin.KeyTable
