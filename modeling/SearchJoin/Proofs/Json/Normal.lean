import SearchJoin.Json.Record

/-!
# Trees in normal form

A tree in normal form is what `normalize` makes of it, and the entries of a map put together give the
map back. An object is in normal form when its names ascend and its values are in normal form.

Main statements: `Value.ofJson_json`, `SortedMap.ofList_entries`, `Json.normalizeFields_perm`.
-/

namespace SearchJoin

section Entries

variable {α : Type} {name : String} {value : α} {entries : List (String × α)}

theorem insertEntry_of_below (hbelow : ∀ entry ∈ entries, name < entry.1) :
    insertEntry name value entries = (name, value) :: entries := by
  cases entries with
  | nil => rfl
  | cons head rest =>
    have hhead : name < head.1 := hbelow head List.mem_cons_self
    rw [insertEntry, if_pos hhead]

theorem insertEntry_of_above (habove : ∀ entry ∈ entries, entry.1 < name) :
    insertEntry name value entries = entries ++ [(name, value)] := by
  induction entries with
  | nil => rfl
  | cons head rest ih =>
    have hhead : head.1 < name := habove head List.mem_cons_self
    have hnotLess : ¬ name < head.1 := String.lt_asymm hhead
    have hne : name ≠ head.1 := by
      intro h
      rw [← h] at hhead
      exact String.lt_irrefl name hhead
    have hrest := ih fun entry hentry => habove entry (List.mem_cons_of_mem _ hentry)
    rw [insertEntry, if_neg hnotLess, if_neg hne, hrest]
    rfl

theorem nodup_names_of_sorted (h : entries.Pairwise fun a b => a.1 < b.1) :
    (entries.map Prod.fst).Nodup := List.pairwise_map.2 (h.imp String.ne_of_lt)

theorem lookup_eq_none_iff_notMem : entries.lookup name = none ↔ name ∉ entries.map Prod.fst := by
  rw [List.lookup_eq_none_iff]
  constructor
  · intro h hmem
    obtain ⟨entry, hentry, rfl⟩ := List.mem_map.1 hmem
    exact bne_iff_ne.1 (h entry hentry) rfl
  · intro h entry hentry
    refine bne_iff_ne.2 fun hname => h ?_
    exact hname ▸ List.mem_map_of_mem hentry

/-- Where no name is repeated the value under a name is the one that stands beside it. -/
theorem lookup_eq_some_iff_mem (hnodup : (entries.map Prod.fst).Nodup) :
    entries.lookup name = some value ↔ (name, value) ∈ entries := by
  induction entries with
  | nil => simp
  | cons head rest ih =>
    obtain ⟨other, held⟩ := head
    obtain ⟨hnotMem, hrest⟩ := List.nodup_cons.1 hnodup
    rw [List.lookup_cons, List.mem_cons, Prod.mk.injEq]
    by_cases hname : name = other
    · subst hname
      have hnot : (name, value) ∉ rest := fun h => hnotMem (List.mem_map.2 ⟨_, h, rfl⟩)
      rw [beq_self_eq_true]
      simp [hnot, eq_comm]
    · rw [beq_eq_false_iff_ne.2 hname]
      simp [hname, ih hrest]

theorem insertEntry_perm (h : name ∉ entries.map Prod.fst) :
    (insertEntry name value entries).Perm ((name, value) :: entries) := by
  induction entries with
  | nil => exact .refl _
  | cons head rest ih =>
    obtain ⟨hne, hrest⟩ := not_or.1 (mt List.mem_cons.2 h)
    rw [insertEntry, if_neg hne]
    split
    · exact .refl _
    · exact ((ih hrest).cons head).trans (.swap _ _ _)

end Entries

/-- The entries of a map put together, one after the other, give the map back. -/
theorem SortedMap.ofList_entries {α : Type} (map : SortedMap α) : ofList map.entries = map := by
  -- Each entry goes behind those that are there already.
  have hfold : ∀ (entries : List (String × α)) (held : SortedMap α),
      (held.entries ++ entries).Pairwise (fun a b => a.1 < b.1) →
      (entries.foldl (fun map entry => map.insert entry.1 entry.2) held).entries =
        held.entries ++ entries := by
    intro entries
    induction entries with
    | nil =>
      intro held _
      rw [List.foldl_nil, List.append_nil]
    | cons entry entries ih =>
      intro held hsorted
      have habove : ∀ other ∈ held.entries, other.1 < entry.1 := by
        intro other hother
        exact (List.pairwise_append.1 hsorted).2.2 other hother entry List.mem_cons_self
      have hinsert : (held.insert entry.1 entry.2).entries = held.entries ++ [entry] :=
        insertEntry_of_above habove
      have hsorted' : ((held.insert entry.1 entry.2).entries ++ entries).Pairwise
          (fun a b => a.1 < b.1) := by
        rw [hinsert, List.append_assoc]
        exact hsorted
      rw [List.foldl_cons, ih _ hsorted', hinsert, List.append_assoc]
      rfl
  exact ext (hfold map.entries empty map.sorted)

namespace Json

theorem lookup_of_below {name : String} {fields : List (String × Json)}
    (hbelow : ∀ field ∈ fields, name < field.1) : fields.lookup name = none := by
  refine lookup_eq_none_iff_notMem.2 fun hmem => ?_
  obtain ⟨field, hfield, rfl⟩ := List.mem_map.1 hmem
  exact String.lt_irrefl _ (hbelow field hfield)

mutual

/-- A tree in normal form is left as it is. -/
theorem normalize_of_normal : (tree : Json) → tree.Normal → tree.normalize = tree
  | .null, _ | .bool _, _ | .num _, _ | .str _, _ => by rw [normalize]
  | .arr items, h => by
    simp only [Normal] at h
    rw [normalize, normalizeItems_of_normal items h]
  | .obj fields, h => by
    simp only [Normal] at h
    rw [normalize, normalizeFields_of_normal fields h.1 h.2]

theorem normalizeItems_of_normal : (items : List Json) → NormalItems items →
    normalizeItems items = items
  | [], _ => by rw [normalizeItems]
  | item :: items, h => by
    rw [normalizeItems, normalize_of_normal item h.1, normalizeItems_of_normal items h.2]

theorem normalizeFields_of_normal : (fields : List (String × Json)) →
    fields.Pairwise (fun a b => a.1 < b.1) → NormalFields fields → normalizeFields fields = fields
  | [], _, _ => by rw [normalizeFields]
  | (name, value) :: fields, hsorted, hnormal => by
    obtain ⟨hbelow, hrest⟩ := List.pairwise_cons.1 hsorted
    have hnone : ¬ (fields.lookup name).isSome = true := by
      rw [lookup_of_below hbelow]
      exact Bool.false_ne_true
    rw [normalizeFields, normalize_of_normal value hnormal.1,
      normalizeFields_of_normal fields hrest hnormal.2, addField, if_neg hnone,
      insertEntry_of_below hbelow]

end

/-- Bringing fields with different names into normal form loses none of them. -/
theorem normalizeFields_perm {fields : List (String × Json)}
    (hnodup : (fields.map Prod.fst).Nodup) :
    (normalizeFields fields).Perm (fields.map fun field => (field.1, field.2.normalize)) := by
  induction fields with
  | nil => rw [normalizeFields]; exact .refl _
  | cons head rest ih =>
    obtain ⟨name, value⟩ := head
    obtain ⟨hnotMem, hrest⟩ := List.nodup_cons.1 hnodup
    have hperm := ih hrest
    have hnot : name ∉ (normalizeFields rest).map Prod.fst := by
      rw [(hperm.map Prod.fst).mem_iff, List.map_map]
      exact hnotMem
    rw [normalizeFields, addField, lookup_eq_none_iff_notMem.2 hnot]
    exact (insertEntry_perm hnot).trans (hperm.cons _)

/-! ## Writing trees in normal form -/

theorem normal_obj {fields : List (String × Json)}
    (hnames : (fields.map Prod.fst).Pairwise (· < ·)) (hvalues : NormalFields fields) :
    (Json.obj fields).Normal := ⟨List.pairwise_map.1 hnames, hvalues⟩

theorem normal_arr_map {α : Type} {encode : α → Json} {xs : List α}
    (h : ∀ x ∈ xs, (encode x).Normal) : (Json.arr (xs.map encode)).Normal := by
  refine normalItems_iff.2 ?_
  intro item hitem
  obtain ⟨x, hx, rfl⟩ := List.mem_map.1 hitem
  exact h x hx

theorem normal_ofOption {α : Type} {encode : α → Json} (h : ∀ x, (encode x).Normal)
    (x : Option α) : (ofOption encode x).Normal := by
  cases x with
  | none => trivial
  | some x => exact h x

end Json

/-- The tree of a value is read as the value. -/
theorem Value.ofJson_json (v : Value) : ofJson v.json = v :=
  ext (Json.normalize_of_normal v.json v.normal)

end SearchJoin
