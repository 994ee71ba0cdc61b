import Mathlib.Data.List.ReduceOption
import SearchJoin.Proofs.Join.FirstSeen

/-!
# What a key table holds

The table of documents has the keys of the documents, in the order in which they are first seen, and for
each key the numbers of the documents that have it, in ascending order.
-/

namespace SearchJoin.KeyTable

theorem lookup_addEntry (key other : Key) (row : Nat) (entries : List (Key × List Nat)) :
    (addEntry key row entries).lookup other =
      if other = key then some ((entries.lookup key).getD [] ++ [row])
      else entries.lookup other := by
  induction entries with
  | nil =>
    by_cases h : other = key
    · simp [addEntry, h]
    · have hbeq : (other == key) = false := by simpa using h
      simp [addEntry, List.lookup_cons, h, hbeq]
  | cons entry entries ih =>
    obtain ⟨held, rows⟩ := entry
    unfold addEntry
    by_cases hheld : held = key
    · rw [if_pos hheld, List.lookup_cons, List.lookup_cons, List.lookup_cons]
      subst hheld
      by_cases h : other = held
      · simp [h]
      · have hbeq : (other == held) = false := by simpa using h
        simp [h, hbeq]
    · rw [if_neg hheld, List.lookup_cons, List.lookup_cons, List.lookup_cons, ih]
      have hne : (key == held) = false := by simpa using Ne.symm hheld
      by_cases h : other = held
      · have hother : other ≠ key := h ▸ hheld
        simp [h, hheld]
      · have hbeq : (other == held) = false := by simpa using h
        simp [hne, hbeq]

/-- The rows of a key are those that it had, and then the numbers of the rows that have it. -/
theorem lookup_addFrom (key : Key) (keys : List (Option Key)) (entries : List (Key × List Nat))
    (row : Nat) :
    ((addFrom entries row keys).lookup key).getD [] = (entries.lookup key).getD [] ++
      ((keys.zipIdx row).filter fun entry => entry.1 = some key).map Prod.snd := by
  induction keys generalizing entries row with
  | nil => simp [addFrom]
  | cons head keys ih =>
    cases head with
    | none => simp [addFrom, ih]
    | some other =>
      rw [addFrom, ih, lookup_addEntry, List.zipIdx_cons]
      by_cases h : key = other
      · subst h; simp
      · have hne : other ≠ key := Ne.symm h
        simp [h, hne]

theorem rows_ofDocuments (fields : List String) (docs : List Document) (key : Key) :
    (ofDocuments fields docs).rows key =
      (docs.zipIdx.filter fun entry => Key.ofDocument? fields entry.1 = some key).map
        Prod.snd := by
  have h := lookup_addFrom key (docs.map (Key.ofDocument? fields)) [] 0
  rw [List.zipIdx_map] at h
  rw [rows, ofDocuments, h, List.filter_map, List.map_map]
  rfl

/-- The documents of a key are those that have it, in their order. -/
theorem filterMap_rows {α : Type} (fields : List String) (docs : List Document) (key : Key)
    (f : Document → α) :
    ((ofDocuments fields docs).rows key).filterMap (fun row => docs[row]?.map f) =
      (docs.filter fun doc => Key.ofDocument? fields doc = some key).map f := by
  -- Every number in the table is that of a document, so that no look-up fails.
  have hget : ∀ entry ∈ docs.zipIdx.filter fun entry => Key.ofDocument? fields entry.1 = some key,
      docs[entry.2]?.map f = some (f entry.1) := by
    intro entry hentry
    rw [List.mem_zipIdx_iff_getElem?.1 (List.mem_of_mem_filter hentry), Option.map_some]
  rw [rows_ofDocuments, List.filterMap_map, List.filterMap_congr (g := some ∘ fun e => f e.1) hget,
    List.filterMap_eq_map]
  conv_rhs => rw [← List.zipIdx_map_fst 0 docs, List.filter_map, List.map_map]
  rfl

theorem keys_addEntry_of_mem {key : Key} {row : Nat} {entries : List (Key × List Nat)}
    (h : key ∈ entries.map Prod.fst) :
    (addEntry key row entries).map Prod.fst = entries.map Prod.fst := by
  induction entries with
  | nil => cases h
  | cons entry entries ih =>
    obtain ⟨held, rows⟩ := entry
    unfold addEntry
    by_cases hheld : held = key
    · rw [if_pos hheld]
      rfl
    · rw [if_neg hheld, List.map_cons, List.map_cons,
        ih (List.mem_of_ne_of_mem (Ne.symm hheld) h)]

theorem keys_addEntry_of_notMem {key : Key} {row : Nat} {entries : List (Key × List Nat)}
    (h : key ∉ entries.map Prod.fst) :
    (addEntry key row entries).map Prod.fst = entries.map Prod.fst ++ [key] := by
  induction entries with
  | nil => rfl
  | cons entry entries ih =>
    obtain ⟨held, rows⟩ := entry
    rw [List.map_cons, List.mem_cons, not_or] at h
    unfold addEntry
    rw [if_neg (Ne.symm h.1), List.map_cons, List.map_cons, ih h.2, List.cons_append]

/-- One step: a row is entered under its key. -/
theorem firstSeen_addEntry {entries : List (Key × List Nat)} {seen : List Key}
    (h : FirstSeen (entries.map Prod.fst) seen) (key : Key) (row : Nat) :
    FirstSeen ((addEntry key row entries).map Prod.fst) (seen ++ [key]) := by
  by_cases hkey : key ∈ seen
  · rw [keys_addEntry_of_mem ((h.mem_iff key).2 hkey)]
    exact h.append_seen hkey
  · rw [keys_addEntry_of_notMem fun hmem => hkey ((h.mem_iff key).1 hmem)]
    exact h.append_new hkey

/-- A run: the keys of all rows are entered in their order. -/
theorem firstSeen_addFrom {entries : List (Key × List Nat)} {seen : List Key}
    (h : FirstSeen (entries.map Prod.fst) seen) (row : Nat) (keys : List (Option Key)) :
    FirstSeen ((addFrom entries row keys).map Prod.fst) (seen ++ keys.reduceOption) := by
  induction keys generalizing entries row seen with
  | nil => rwa [List.reduceOption_nil, List.append_nil]
  | cons head keys ih =>
    cases head with
    | none => exact ih h (row + 1)
    | some key =>
      rw [List.reduceOption_cons_of_some, List.append_cons]
      exact ih (firstSeen_addEntry h key row) (row + 1)

theorem firstSeen_keys_ofDocuments (fields : List String) (docs : List Document) :
    FirstSeen (ofDocuments fields docs).keys (docs.filterMap (Key.ofDocument? fields)) := by
  have hempty : FirstSeen (([] : List (Key × List Nat)).map Prod.fst) [] := .nil
  have h := firstSeen_addFrom hempty 0 (docs.map (Key.ofDocument? fields))
  rwa [List.nil_append, List.reduceOption, List.filterMap_map] at h

/-- The keys of the table of documents are the keys of the documents. -/
theorem mem_keys_ofDocuments {fields : List String} {docs : List Document} {key : Key} :
    key ∈ (ofDocuments fields docs).keys ↔
      ∃ doc ∈ docs, Key.ofDocument? fields doc = some key := by
  rw [(firstSeen_keys_ofDocuments fields docs).mem_iff, List.mem_filterMap]

theorem mem_distinctParts {table : KeyTable} {position : Nat} {part : KeyPart} :
    part ∈ table.distinctParts position ↔ ∃ key ∈ table.keys, key[position]? = some part := by
  rw [distinctParts, mem_distinct, List.mem_filterMap]

/-- The table is empty when no document has a key. -/
theorem isEmpty_ofDocuments {fields : List String} {docs : List Document} :
    (ofDocuments fields docs).isEmpty = true ↔
      ∀ doc ∈ docs, Key.ofDocument? fields doc = none := by
  have hkeys : (ofDocuments fields docs).isEmpty = true ↔
      ∀ key, key ∉ (ofDocuments fields docs).keys := by
    rw [isEmpty, List.isEmpty_iff, ← List.eq_nil_iff_forall_not_mem, keys, List.map_eq_nil_iff]
  rw [hkeys]
  constructor
  · intro h doc hdoc
    cases hkey : Key.ofDocument? fields doc with
    | none => rfl
    | some key => exact absurd (mem_keys_ofDocuments.2 ⟨doc, hdoc, hkey⟩) (h key)
  · intro h key hmem
    obtain ⟨doc, hdoc, hkey⟩ := mem_keys_ofDocuments.1 hmem
    rw [h doc hdoc] at hkey
    cases hkey

end SearchJoin.KeyTable
