import SearchJoin.Proofs.Join.RowNames
import Mathlib.Data.List.ReduceOption

/-!
# The fields of a row

A row begins with the wanted fields of the first document. Behind them stands one entry for each wanted field
of the second document, unless the row showed its value already when its turn came. A name that is wanted is
looked for among the fields of the document itself: a path into one of its objects brings nothing.

Main statements: `Row.fields_merge`, `Row.get?_merge_of_mem`.
-/

namespace SearchJoin.Row

variable {qualifier name : String} {value : Value} {fields : List (String × Value)}

/-! ## What a field adds -/

theorem Adds.cases {field : String × Value} {added? : Option (String × Value)}
    (h : Adds qualifier fields field added?) :
    added? = some field ∨ added? = some (qualified qualifier field.1, field.2) ∨
      added? = none ∧ ∃ held, fields.lookup field.1 = some held ∧ held.same field.2 = true := by
  cases h with
  | nothing hheld hsame => exact .inr (.inr ⟨rfl, _, hheld, hsame⟩)
  | itself => exact .inl rfl
  | renamed => exact .inr (.inl rfl)

theorem reduceOption_cons_eq {α : Type} (x? : Option α) (xs : List (Option α)) :
    (x? :: xs).reduceOption = x?.toList ++ xs.reduceOption := by
  cases x? with
  | none => exact List.reduceOption_cons_of_none xs
  | some x => exact List.reduceOption_cons_of_some x xs

/-- Each of the fields adds what it adds to the entries that stand there when its turn comes. -/
theorem exists_foldl_addSecond_eq (qualifier : String) (fields others : List (String × Value)) :
    ∃ adds : List (Option (String × Value)), adds.length = others.length ∧
      others.foldl (addSecond qualifier) fields = fields ++ adds.reduceOption ∧
      ∀ i : Fin others.length, ∃ added?, adds[i.val]? = some added? ∧
        Adds qualifier (fields ++ (adds.take i).reduceOption) others[i] added? := by
  induction others generalizing fields with
  | nil => exact ⟨[], rfl, (List.append_nil fields).symm, fun i => i.elim0⟩
  | cons field others ih =>
    obtain ⟨added?, hstep, hadds⟩ := exists_addSecond_eq qualifier fields field
    obtain ⟨adds, hlength, hrun, heach⟩ := ih (fields ++ added?.toList)
    refine ⟨added? :: adds, congrArg Nat.succ hlength, ?_, ?_⟩
    · rw [List.foldl_cons, hstep, hrun, reduceOption_cons_eq, List.append_assoc]
    · intro i
      cases i using Fin.cases with
      | zero =>
        refine ⟨added?, rfl, ?_⟩
        have hnil : fields ++ ((added? :: adds).take 0).reduceOption = fields := List.append_nil fields
        exact hnil.symm ▸ hadds
      | succ i =>
        obtain ⟨later?, hlater, hadds'⟩ := heach i
        refine ⟨later?, hlater, ?_⟩
        have hbefore : fields ++ ((added? :: adds).take (i + 1)).reduceOption =
            fields ++ added?.toList ++ (adds.take i).reduceOption := by
          rw [List.take_succ_cons, reduceOption_cons_eq, List.append_assoc]
        exact hbefore.symm ▸ hadds'

/-! ## Which fields are wanted -/

/-- The fields are those of the document that are wanted, in the order of the document: all of them where no
name is given, else those that have one of the names. -/
structure Wants (names : List String) (doc : Document) (fields : List (String × Value)) : Prop where
  /-- The fields stand as in the document. -/
  sublist : fields.Sublist doc.source.entries
  /-- Which ones they are. -/
  mem_iff : ∀ field, field ∈ fields ↔ field ∈ doc.source.entries ∧ (names = [] ∨ field.1 ∈ names)

theorem wants_wanted (names : List String) (doc : Document) : Wants names doc (wanted names doc) where
  sublist := List.filter_sublist
  mem_iff field := by
    rw [wanted, List.mem_filter, Bool.or_eq_true, List.isEmpty_iff, List.contains_iff_mem]

/-! ## Rows -/

theorem lookup_append_left {later : List (String × Value)} (h : fields.lookup name = some value) :
    (fields ++ later).lookup name = some value := by
  rw [List.lookup_append, h, Option.some_or]

/-- Merging loses no field and invents none. The row has the wanted fields of the first document, and then
what the wanted fields of the second one add, each in its turn: nothing where the row shows an equal value
under the name by then, else one entry, which is the field or has its value under the qualified name. Values are
equal in the sense of `Value.same`, to which the two zeros of binary64 are one number. -/
theorem fields_merge (first : Document) (firstFields : List String) (qualifier : String) (second : Document)
    (secondFields : List String) :
    let own := wanted firstFields first
    let others := wanted secondFields second
    let row := merge first firstFields qualifier second secondFields
    Wants firstFields first own ∧ Wants secondFields second others ∧
    ∃ adds : List (Option (String × Value)), adds.length = others.length ∧
      row.fields = own ++ adds.reduceOption ∧
      (∀ i : Fin others.length, ∃ added?, adds[i.val]? = some added? ∧
        Adds qualifier (own ++ (adds.take i).reduceOption) others[i] added?) ∧
      ∀ field ∈ others, field ∈ row.fields ∨ (qualified qualifier field.1, field.2) ∈ row.fields ∨
        ∃ held, row.get? field.1 = some held ∧ held.same field.2 = true := by
  intro own others row
  refine ⟨wants_wanted firstFields first, wants_wanted secondFields second, ?_⟩
  obtain ⟨adds, hlength, hrun, heach⟩ := exists_foldl_addSecond_eq qualifier own others
  have hfields : row.fields = own ++ adds.reduceOption := hrun
  refine ⟨adds, hlength, hfields, heach, ?_⟩
  intro field hfield
  obtain ⟨i, hi, rfl⟩ := List.getElem_of_mem hfield
  obtain ⟨added?, hentry, hadds⟩ := heach ⟨i, hi⟩
  have hmem : ∀ entry, added? = some entry → entry ∈ row.fields := by
    rintro entry rfl
    rw [hfields]
    exact List.mem_append_right _ (List.reduceOption_mem_iff.2 (List.mem_of_getElem? hentry))
  rcases hadds.cases with hitself | hrenamed | ⟨-, held, hheld, hsame⟩
  · exact .inl (hmem _ hitself)
  · exact .inr (.inl (hmem _ hrenamed))
  · -- What the row shows under a name before the field's turn it shows in the end.
    refine .inr (.inr ⟨held, ?_, hsame⟩)
    have hend : row.fields = own ++ (adds.take i).reduceOption ++ (adds.drop i).reduceOption := by
      rw [hfields, List.append_assoc, ← List.reduceOption_append, List.take_append_drop]
    rw [get?, hend]
    exact lookup_append_left hheld

/-- An entry of a row is of one of the two documents. -/
theorem mem_merge {first second : Document} {firstFields secondFields : List String}
    {entry : String × Value}
    (h : entry ∈ (merge first firstFields qualifier second secondFields).fields) :
    entry ∈ wanted firstFields first ∨ ∃ field ∈ wanted secondFields second,
      entry = field ∨ entry = (qualified qualifier field.1, field.2) := by
  obtain ⟨adds, hlength, hrun, heach⟩ := exists_foldl_addSecond_eq qualifier
    (wanted firstFields first) (wanted secondFields second)
  rw [merge, hrun] at h
  rcases List.mem_append.1 h with hown | hlater
  · exact .inl hown
  · obtain ⟨i, hi, hentry⟩ := List.getElem_of_mem (List.reduceOption_mem_iff.1 hlater)
    obtain ⟨added?, hadded, hadds⟩ := heach ⟨i, hlength ▸ hi⟩
    have hsome : added? = some entry := by
      rw [← hentry]
      exact Option.some.inj (hadded.symm.trans (List.getElem?_eq_getElem hi))
    refine .inr ⟨_, List.getElem_mem (hlength ▸ hi), ?_⟩
    rcases hadds.cases with hitself | hrenamed | ⟨hnone, -⟩
    · exact .inl (Option.some.inj (hsome.symm.trans hitself))
    · exact .inr (Option.some.inj (hsome.symm.trans hrenamed))
    · cases hsome.symm.trans hnone

/-! ## Wanted names -/

theorem get?_of_plain {doc : Document} (h : '.' ∉ name.toList) : doc.get? name = doc.source.get? name := by
  rw [Document.get?, Text.split_of_notMem h]
  simp

theorem lookup_wanted {names : List String} (doc : Document) (h : name ∈ names) :
    (wanted names doc).lookup name = doc.source.get? name := by
  ext value
  rw [SortedMap.get?, lookup_eq_some_iff_mem (nodup_names_of_sorted (sorted_wanted names doc)),
    lookup_eq_some_iff_mem (nodup_names_of_sorted doc.source.sorted), (wants_wanted names doc).mem_iff]
  exact and_iff_left (.inr h)

theorem get?_merge_of_lookup {first second : Document} {firstFields secondFields : List String}
    (hname : name ∈ firstFields) (hvalue : first.source.get? name = some value) :
    (merge first firstFields qualifier second secondFields).get? name = some value := by
  obtain ⟨adds, -, hrun, -⟩ := exists_foldl_addSecond_eq qualifier (wanted firstFields first)
    (wanted secondFields second)
  have hown : (wanted firstFields first).lookup name = some value := by
    rw [lookup_wanted first hname, hvalue]
  rw [get?, merge, hrun]
  exact lookup_append_left hown

/-- A selected name reaches the row when it names a field of the document itself. Let a path to a value be a
wanted name of the first document. Without a point it is a name, and the row has the value. With or without
one, every row with the document has the value exactly when the document has it in a field of that very name;
and without such a field what a row has under the name is of the second document. -/
theorem get?_merge_of_mem {first : Document} {firstFields : List String} {name : String} {value : Value}
    (hname : name ∈ firstFields) (hvalue : first.get? name = some value) :
    ('.' ∉ name.toList → ∀ qualifier second secondFields,
      (merge first firstFields qualifier second secondFields).get? name = some value) ∧
    ((∀ qualifier second secondFields,
      (merge first firstFields qualifier second secondFields).get? name = some value) ↔
        first.source.get? name = some value) ∧
    (first.source.get? name = none → ∀ qualifier second secondFields,
      ∀ entry ∈ (merge first firstFields qualifier second secondFields).fields, entry.1 = name →
        ∃ field ∈ wanted secondFields second,
          entry = field ∨ entry = (qualified qualifier field.1, field.2)) := by
  refine ⟨?plain, ⟨?top, ?_⟩, ?path⟩
  case plain =>
    intro hplain qualifier second secondFields
    rw [get?_of_plain hplain] at hvalue
    exact get?_merge_of_lookup hname hvalue
  case top =>
    intro hrows
    -- A second document without fields leaves the fields of the first one.
    have hrow := hrows "" ⟨"", "", .empty⟩ []
    have hown : (merge first firstFields "" ⟨"", "", .empty⟩ []).fields = wanted firstFields first := rfl
    rw [get?, hown, lookup_wanted first hname] at hrow
    exact hrow
  · intro htop qualifier second secondFields
    exact get?_merge_of_lookup hname htop
  case path =>
    rintro hnone qualifier second secondFields entry hentry rfl
    rcases mem_merge hentry with hown | hsecond
    · have hsource : entry ∈ first.source.entries := (List.mem_filter.1 hown).1
      exact absurd (List.mem_map_of_mem hsource) (lookup_eq_none_iff_notMem.1 hnone)
    · exact hsecond

theorem get?_merge_of_mem_sample :
    let first : Document := ⟨"1", "users", .ofList [("address", .ofJson (.obj [("city", .str "bonn")])),
      ("id", .str "u1")]⟩
    let wantedNames := ["id", "address.city"]
    ("id" ∈ wantedNames ∧ first.get? "id" = some (.str "u1") ∧
      (merge first wantedNames "o" ⟨"2", "orders", .ofList [("id", .str "o1")]⟩ []).get? "id" =
        some (.str "u1")) ∧
    "address.city" ∈ wantedNames ∧ first.get? "address.city" = some (.str "bonn") ∧
      ¬ ∀ qualifier second secondFields,
        (merge first wantedNames qualifier second secondFields).get? "address.city" =
          some (.str "bonn") := by
  intro first wantedNames
  have hname : "id" ∈ wantedNames := by decide
  have hvalue : first.get? "id" = some (.str "u1") := rfl
  have hpath : "address.city" ∈ wantedNames := by decide
  have hcity : first.get? "address.city" = some (.str "bonn") := rfl
  have hnone : first.source.get? "address.city" ≠ some (.str "bonn") := nofun
  exact ⟨⟨hname, hvalue, (get?_merge_of_mem hname hvalue).1 (by decide) _ _ _⟩, hpath, hcity,
    mt (get?_merge_of_mem hpath hcity).2.1.1 hnone⟩

/-- A wanted path into an object of the first document: the row has nothing of it. -/
theorem merge_drops_path :
    let first : Document := ⟨"1", "users", .ofList [("address", .ofJson (.obj [("city", .str "bonn")]))]⟩
    let row := merge first ["address.city"] "o" ⟨"2", "orders", .empty⟩ []
    first.get? "address.city" = some (.str "bonn") ∧ row.get? "address.city" = none ∧ row.fields = [] :=
  ⟨rfl, rfl, rfl⟩

end SearchJoin.Row
