import SearchJoin.Join.Row
import SearchJoin.Proofs.Json.Normal
import Mathlib.Data.List.Nodup

/-!
# The names of a row

A field of the second document that finds another value under its name is added under its qualified name,
whether or not the row has that name already. So a name is repeated exactly when a field is renamed to a name
in use. A row is an object with all of its fields exactly when no name is repeated.

Main statements: `Row.nodup_names_merge_iff`, `Row.toJson_keeps_iff`.
-/

namespace SearchJoin.Row

/-! ## Renamed fields -/

section Names

variable {fields : List (String × Value)} {name other : String} {value : Value}

theorem mem_names_concat :
    other ∈ (fields ++ [(name, value)]).map Prod.fst ↔ other ∈ fields.map Prod.fst ∨ other = name := by
  simp

theorem forall_names_concat {P : String → Prop} :
    (∀ other ∈ (fields ++ [(name, value)]).map Prod.fst, P other) ↔
      (∀ other ∈ fields.map Prod.fst, P other) ∧ P name := by
  simp only [mem_names_concat, or_imp, forall_and, forall_eq]

theorem nodup_names_concat :
    ((fields ++ [(name, value)]).map Prod.fst).Nodup ↔
      name ∉ fields.map Prod.fst ∧ (fields.map Prod.fst).Nodup := by
  rw [List.map_append, List.nodup_append_comm]
  exact List.nodup_cons

theorem lookup_concat_of_ne (h : other ≠ name) :
    (fields ++ [(name, value)]).lookup other = fields.lookup other := by
  rw [List.lookup_append, List.lookup_cons, beq_eq_false_iff_ne.2 h]
  exact Option.or_none

theorem mem_names_of_lookup (h : fields.lookup name = some value) : name ∈ fields.map Prod.fst := by
  by_cases hmem : name ∈ fields.map Prod.fst
  · exact hmem
  · rw [lookup_eq_none_iff_notMem.2 hmem] at h
    cases h

end Names

/-- The name that a field gets whose own name is in use. -/
def qualified (qualifier name : String) : String := s!"{qualifier}.{name}"

variable {qualifier : String} {first second done rest fields : List (String × Value)}

theorem qualified_inj {name other : String} :
    qualified qualifier name = qualified qualifier other ↔ name = other := by
  simp [qualified, String.append_right_inj, toString]

/-- What a field of the second document adds to the entries of a row. -/
inductive Adds (qualifier : String) (fields : List (String × Value)) :
    String × Value → Option (String × Value) → Prop where
  /-- Nothing, where the row shows an equal value under the name. -/
  | nothing {name : String} {value held : Value} (hheld : fields.lookup name = some held)
    (hsame : held.same value = true) : Adds qualifier fields (name, value) none
  /-- Itself, where the row has no such name. -/
  | itself {name : String} {value : Value} (hnone : fields.lookup name = none) :
    Adds qualifier fields (name, value) (some (name, value))
  /-- Its value under its qualified name, where the row shows another value. -/
  | renamed {name : String} {value held : Value} (hheld : fields.lookup name = some held)
    (hdiffer : held.same value = false) :
    Adds qualifier fields (name, value) (some (qualified qualifier name, value))

theorem exists_addSecond_eq (qualifier : String) (fields : List (String × Value))
    (field : String × Value) :
    ∃ added?, addSecond qualifier fields field = fields ++ added?.toList ∧
      Adds qualifier fields field added? := by
  obtain ⟨name, value⟩ := field
  unfold addSecond
  dsimp only
  split
  · rename_i held hheld
    split
    · rename_i hsame
      exact ⟨none, (List.append_nil fields).symm, .nothing hheld hsame⟩
    · rename_i hdiffer
      exact ⟨some (qualified qualifier name, value), rfl, .renamed hheld (eq_false_of_ne_true hdiffer)⟩
  · rename_i hnone
    exact ⟨some (name, value), rfl, .itself hnone⟩

/-- The names of the second document's fields that get their qualified name: the row has another value under
the name, either from the first document or from a field of the second one that has been renamed to it
before. Fields come in the order of their names. -/
inductive Renamed (qualifier : String) (first second : List (String × Value)) : String → Prop where
  /-- The first document has another value. -/
  | held {name : String} {a b : Value} (hfirst : (name, a) ∈ first) (hsecond : (name, b) ∈ second)
    (hdiffer : a.same b = false) : Renamed qualifier first second name
  /-- A field has been renamed to it. -/
  | taken {name : String} {a b : Value} (hrenamed : Renamed qualifier first second name)
    (hfirst : qualified qualifier name ∉ first.map Prod.fst) (hbefore : (name, a) ∈ second)
    (hsecond : (qualified qualifier name, b) ∈ second) (hlt : name < qualified qualifier name)
    (hdiffer : a.same b = false) : Renamed qualifier first second (qualified qualifier name)

/-- A field is renamed to a name that the row has already. -/
def Clashes (qualifier : String) (first second : List (String × Value)) (name : String) : Prop :=
  Renamed qualifier first second name ∧
    (qualified qualifier name ∈ first.map Prod.fst ∨
      qualified qualifier name ∈ second.map Prod.fst ∧ qualified qualifier name < name)

theorem Renamed.mem_names {name : String} (h : Renamed qualifier first second name) :
    name ∈ second.map Prod.fst := by
  cases h with
  | held _ hsecond => exact List.mem_map_of_mem hsecond
  | taken _ _ _ hsecond => exact List.mem_map_of_mem hsecond

/-- One of the fields `done` with the value has been renamed to the name. -/
def RenamedTo (qualifier : String) (first second done : List (String × Value)) (name : String)
    (value : Value) : Prop :=
  ∃ other, (other, value) ∈ done ∧ Renamed qualifier first second other ∧ name = qualified qualifier other

theorem renamedTo_concat {name other : String} {value a : Value} :
    RenamedTo qualifier first second (done ++ [(name, value)]) other a ↔
      RenamedTo qualifier first second done other a ∨
        Renamed qualifier first second name ∧ other = qualified qualifier name ∧ a = value := by
  unfold RenamedTo
  constructor
  · rintro ⟨before, hmem, hrenamed, rfl⟩
    rcases List.mem_append.1 hmem with hdone | hlast
    · exact .inl ⟨before, hdone, hrenamed, rfl⟩
    · obtain ⟨rfl, rfl⟩ := Prod.mk.inj (List.mem_singleton.1 hlast)
      exact .inr ⟨hrenamed, rfl, rfl⟩
  · rintro (⟨before, hdone, hrenamed, rfl⟩ | ⟨hrenamed, rfl, rfl⟩)
    · exact ⟨before, List.mem_append_left _ hdone, hrenamed, rfl⟩
    · exact ⟨name, List.mem_append_right _ List.mem_cons_self, hrenamed, rfl⟩

theorem renamedTo_concat_of_not_renamed {name other : String} {value a : Value}
    (h : ¬ Renamed qualifier first second name) :
    RenamedTo qualifier first second (done ++ [(name, value)]) other a ↔
      RenamedTo qualifier first second done other a :=
  renamedTo_concat.trans (or_iff_left fun hlast => h hlast.1)

/-! ## Adding a field -/

/-- What a row holds when the fields `done` of the second document have been added. -/
structure Merged (qualifier : String) (first second done fields : List (String × Value)) : Prop where
  /-- The names are those of both documents and the new names of renamed fields. -/
  mem_names (name : String) : name ∈ fields.map Prod.fst ↔
    name ∈ first.map Prod.fst ∨ name ∈ done.map Prod.fst ∨
      ∃ a, RenamedTo qualifier first second done name a
  /-- The value under a name that is still to come is that of the first document, or else that of the field
  that has been renamed to it. -/
  lookup (name : String) (hname : name ∉ done.map Prod.fst) (a : Value) :
    fields.lookup name = some a ↔
      (name, a) ∈ first ∨ name ∉ first.map Prod.fst ∧ RenamedTo qualifier first second done name a
  /-- A name is repeated when a field has been renamed to a name in use. -/
  nodup : (fields.map Prod.fst).Nodup ↔ ∀ name ∈ done.map Prod.fst, ¬ Clashes qualifier first second name

/-- Before any field of the second document the row has the fields of the first one. -/
theorem merged_nil (hfirst : (first.map Prod.fst).Nodup) : Merged qualifier first second [] first where
  mem_names name := by simp [RenamedTo]
  lookup name _ a := by simp [RenamedTo, lookup_eq_some_iff_mem hfirst]
  nodup := by simp [hfirst]

/-- The field comes next in the second document, after the fields `done`. -/
structure Next (second done : List (String × Value)) (name : String) (value : Value) : Prop where
  /-- The document has a name once. -/
  nodup : (second.map Prod.fst).Nodup
  mem : (name, value) ∈ second
  mem_done (field : String × Value) : field ∈ done ↔ field ∈ second ∧ field.1 < name

namespace Next

variable {name : String} {value : Value}

theorem of_append (hsorted : (done ++ (name, value) :: rest).Pairwise fun a b => a.1 < b.1) :
    Next (done ++ (name, value) :: rest) done name value := by
  obtain ⟨-, hrest, hbefore⟩ := List.pairwise_append.1 hsorted
  have hafter := (List.pairwise_cons.1 hrest).1
  refine ⟨?_, List.mem_append_right _ List.mem_cons_self, fun field => ?_⟩
  · exact nodup_names_of_sorted hsorted
  · constructor
    · exact fun hdone => ⟨List.mem_append_left _ hdone, hbefore field hdone _ List.mem_cons_self⟩
    · rintro ⟨hmem, hlt⟩
      rcases List.mem_append.1 hmem with hdone | hmem
      · exact hdone
      · rcases List.mem_cons.1 hmem with rfl | hlater
        · exact absurd hlt (String.lt_irrefl _)
        · exact absurd hlt (String.lt_asymm (hafter field hlater))

theorem notMem_done (h : Next second done name value) : name ∉ done.map Prod.fst := by
  intro hmem
  obtain ⟨field, hfield, rfl⟩ := List.mem_map.1 hmem
  exact String.lt_irrefl _ ((h.mem_done field).1 hfield).2

theorem mem_names_done (h : Next second done name value) {other : String} :
    other ∈ done.map Prod.fst ↔ other ∈ second.map Prod.fst ∧ other < name := by
  constructor
  · intro hmem
    obtain ⟨field, hfield, rfl⟩ := List.mem_map.1 hmem
    obtain ⟨hsecond, hlt⟩ := (h.mem_done field).1 hfield
    exact ⟨List.mem_map_of_mem hsecond, hlt⟩
  · rintro ⟨hmem, hlt⟩
    obtain ⟨field, hfield, rfl⟩ := List.mem_map.1 hmem
    exact List.mem_map_of_mem ((h.mem_done field).2 ⟨hfield, hlt⟩)

/-- Names differ, so no field before has been renamed to the same name. -/
theorem not_renamedTo (h : Next second done name value) (a : Value) :
    ¬ RenamedTo qualifier first second done (qualified qualifier name) a := by
  rintro ⟨other, hother, -, hname⟩
  rw [qualified_inj] at hname
  exact h.notMem_done (hname ▸ List.mem_map_of_mem hother)

theorem eq_of_mem (h : Next second done name value) {other : Value} (hmem : (name, other) ∈ second) :
    other = value := by
  have hlookup := (lookup_eq_some_iff_mem h.nodup).2 hmem
  rw [(lookup_eq_some_iff_mem h.nodup).2 h.mem] at hlookup
  exact (Option.some.inj hlookup).symm

end Next

namespace Merged

variable {name : String} {value held : Value} (h : Merged qualifier first second done fields)
  (hnext : Next second done name value)

include h hnext

/-- A field is renamed when it finds another value under its name. -/
theorem renamed_iff :
    Renamed qualifier first second name ↔ ∃ a, fields.lookup name = some a ∧ a.same value = false := by
  constructor
  · intro hrenamed
    cases hrenamed with
    | @held _ a b hfirst hsecond hdiffer =>
      cases hnext.eq_of_mem hsecond
      exact ⟨a, (h.lookup name hnext.notMem_done a).2 (.inl hfirst), hdiffer⟩
    | @taken other a b hrenamed hfirst hbefore hsecond hlt hdiffer =>
      cases hnext.eq_of_mem hsecond
      have hdone := (hnext.mem_done _).2 ⟨hbefore, hlt⟩
      exact ⟨a, (h.lookup _ hnext.notMem_done a).2 (.inr ⟨hfirst, other, hdone, hrenamed, rfl⟩), hdiffer⟩
  · rintro ⟨a, hlookup, hdiffer⟩
    rcases (h.lookup name hnext.notMem_done a).1 hlookup with hfirst | ⟨hfirst, other, hother, hrenamed, rfl⟩
    · exact .held hfirst hnext.mem hdiffer
    · obtain ⟨hbefore, hlt⟩ := (hnext.mem_done _).1 hother
      exact .taken hrenamed hfirst hbefore hnext.mem hlt hdiffer

/-- A renamed field clashes when its new name is a name of the row. -/
theorem clashes_iff (hrenamed : Renamed qualifier first second name) :
    Clashes qualifier first second name ↔ qualified qualifier name ∈ fields.map Prod.fst := by
  rw [h.mem_names, hnext.mem_names_done, Clashes, and_iff_right hrenamed, ← or_assoc]
  exact (or_iff_left fun ⟨a, hrenamedTo⟩ => hnext.not_renamedTo a hrenamedTo).symm

/-- Under its new name a renamed field is found behind the fields of the first document. -/
theorem lookup_concat (hrenamed : Renamed qualifier first second name) (other : String)
    (hother : other ∉ done.map Prod.fst) (a : Value) :
    (fields ++ [(qualified qualifier name, value)]).lookup other = some a ↔
      (other, a) ∈ first ∨ other ∉ first.map Prod.fst ∧
        RenamedTo qualifier first second (done ++ [(name, value)]) other a := by
  rw [renamedTo_concat, and_iff_right hrenamed]
  by_cases hname : other = qualified qualifier name
  · subst hname
    have hfirst := h.lookup _ hother
    simp only [hnext.not_renamedTo, and_false, or_false] at hfirst
    rw [List.lookup_append, List.lookup_cons_self]
    cases hlookup : fields.lookup (qualified qualifier name) with
    | none =>
      have hnone : ∀ b, (qualified qualifier name, b) ∉ first := by
        intro b hb
        rw [← hfirst, hlookup] at hb
        cases hb
      simp [hnone, hnext.not_renamedTo, eq_comm]
    | some b =>
      have hmem : qualified qualifier name ∈ first.map Prod.fst :=
        List.mem_map_of_mem ((hfirst b).1 hlookup)
      rw [Option.some_or, ← hlookup, hfirst]
      simp only [hmem, not_true_eq_false, false_and, or_false]
  · rw [lookup_concat_of_ne hname, h.lookup other hother]
    simp only [hname, false_and, or_false]

/-- A field whose name is not in use is added as it is. -/
theorem push (hnone : fields.lookup name = none) :
    Merged qualifier first second (done ++ [(name, value)]) (fields ++ [(name, value)]) := by
  have hnot : ¬ Renamed qualifier first second name := by
    intro hrenamed
    obtain ⟨a, hlookup, -⟩ := (h.renamed_iff hnext).1 hrenamed
    rw [hnone] at hlookup
    cases hlookup
  constructor
  case mem_names =>
    intro other
    simp only [mem_names_concat, h.mem_names, renamedTo_concat_of_not_renamed hnot]
    grind
  case lookup =>
    intro other hother a
    rw [mem_names_concat, not_or] at hother
    rw [lookup_concat_of_ne hother.2, h.lookup other hother.1, renamedTo_concat_of_not_renamed hnot]
  case nodup =>
    rw [nodup_names_concat, forall_names_concat, h.nodup, and_comm]
    exact and_congr_right fun _ => iff_of_true (lookup_eq_none_iff_notMem.1 hnone) fun hclash => hnot hclash.1

/-- A field whose value is there already is left out. -/
theorem skip (hheld : fields.lookup name = some held) (hsame : held.same value = true) :
    Merged qualifier first second (done ++ [(name, value)]) fields := by
  have hnot : ¬ Renamed qualifier first second name := by
    intro hrenamed
    obtain ⟨a, hlookup, hdiffer⟩ := (h.renamed_iff hnext).1 hrenamed
    cases hheld.symm.trans hlookup
    exact Bool.false_ne_true (hdiffer.symm.trans hsame)
  constructor
  case mem_names =>
    intro other
    have hold : other = name → other ∈ fields.map Prod.fst := fun hname => hname ▸ mem_names_of_lookup hheld
    simp only [h.mem_names] at hold
    simp only [mem_names_concat, h.mem_names, renamedTo_concat_of_not_renamed hnot]
    grind
  case lookup =>
    intro other hother a
    rw [mem_names_concat, not_or] at hother
    rw [h.lookup other hother.1, renamedTo_concat_of_not_renamed hnot]
  case nodup =>
    rw [forall_names_concat, h.nodup]
    exact (and_iff_left fun hclash => hnot hclash.1).symm

/-- A field that finds another value is added under its qualified name. -/
theorem rename (hheld : fields.lookup name = some held) (hdiffer : held.same value = false) :
    Merged qualifier first second (done ++ [(name, value)])
      (fields ++ [(qualified qualifier name, value)]) := by
  have hrenamed := (h.renamed_iff hnext).2 ⟨held, hheld, hdiffer⟩
  constructor
  case mem_names =>
    intro other
    have hold : other = name → other ∈ fields.map Prod.fst := fun hname => hname ▸ mem_names_of_lookup hheld
    simp only [h.mem_names] at hold
    simp only [mem_names_concat, h.mem_names, renamedTo_concat, hrenamed, true_and, exists_or, exists_and_left,
      exists_eq, and_true]
    grind
  case lookup =>
    intro other hother a
    rw [mem_names_concat, not_or] at hother
    exact h.lookup_concat hnext hrenamed other hother.1 a
  case nodup =>
    rw [nodup_names_concat, forall_names_concat, h.nodup, h.clashes_iff hnext hrenamed, and_comm]

/-- The three ways of adding a field put together. -/
theorem addSecond :
    Merged qualifier first second (done ++ [(name, value)])
      (addSecond qualifier fields (name, value)) := by
  obtain ⟨added?, hstep, hadds⟩ := exists_addSecond_eq qualifier fields (name, value)
  rw [hstep]
  cases hadds with
  | nothing hheld hsame =>
    rw [Option.toList_none, List.append_nil]
    exact h.skip hnext hheld hsame
  | itself hnone => exact h.push hnext hnone
  | renamed hheld hdiffer => exact h.rename hnext hheld hdiffer

end Merged

/-! ## Rows -/

theorem merged_foldl (hsorted : (done ++ rest).Pairwise fun a b => a.1 < b.1)
    (h : Merged qualifier first (done ++ rest) done fields) :
    Merged qualifier first (done ++ rest) (done ++ rest) (rest.foldl (addSecond qualifier) fields) := by
  -- The fields that are still to come go over to those that are done one by one.
  induction rest generalizing done fields with
  | nil =>
    rw [List.append_nil] at h ⊢
    exact h
  | cons field rest ih =>
    obtain ⟨name, value⟩ := field
    have hstep := h.addSecond (.of_append hsorted)
    rw [List.append_cons] at hsorted hstep ⊢
    exact ih hsorted hstep

theorem sorted_wanted (names : List String) (doc : Document) :
    (wanted names doc).Pairwise fun a b => a.1 < b.1 := doc.source.sorted.filter _

/-- No name of a row is repeated exactly when no field is renamed to a name in use. -/
theorem nodup_names_merge_iff (first : Document) (firstFields : List String) (qualifier : String)
    (second : Document) (secondFields : List String) :
    (merge first firstFields qualifier second secondFields).names.Nodup ↔
      ∀ name, ¬ Clashes qualifier (wanted firstFields first) (wanted secondFields second) name := by
  have hnil : Merged qualifier (wanted firstFields first) ([] ++ wanted secondFields second) []
      (wanted firstFields first) := merged_nil (nodup_names_of_sorted (sorted_wanted firstFields first))
  have hrun := merged_foldl (sorted_wanted secondFields second) hnil
  refine hrun.nodup.trans ⟨fun h name hclash => ?_, fun h name _ => h name⟩
  exact h name hclash.1.mem_names hclash

theorem names_ordered (row : Row) :
    (row.fields.map fun field => (field.1, field.2.json)).map Prod.fst = row.names := by
  rw [List.map_map]
  rfl

/-- The object of a row has all of its fields exactly when no name is repeated. -/
theorem toJson_keeps_iff (row : Row) :
    (∃ fields, row.toJson = .obj fields ∧
      fields.Perm (row.fields.map fun field => (field.1, field.2.json))) ↔ row.names.Nodup := by
  have hobj : row.toJson =
      .obj (Json.normalizeFields (row.fields.map fun field => (field.1, field.2.json))) := by
    rw [toJson, ordered, Json.normalize]
  rw [← names_ordered]
  constructor
  · rintro ⟨fields, hfields, hperm⟩
    cases hobj.symm.trans hfields
    -- The names of an object in normal form ascend.
    have hsorted := (Json.normalFields_normalizeFields
      (row.fields.map fun field => (field.1, field.2.json))).1
    rw [← (hperm.map Prod.fst).nodup_iff]
    exact nodup_names_of_sorted hsorted
  · intro hnodup
    refine ⟨_, hobj, (Json.normalizeFields_perm hnodup).trans ?_⟩
    rw [List.map_map]
    refine .of_eq (List.map_congr_left fun field _ => ?_)
    exact congrArg (Prod.mk field.1) (Json.normalize_of_normal _ field.2.normal)

/-- A row is a map, so that it is written as an object without repeated names and its object has all of its
fields, exactly when no field is renamed to a name in use. -/
theorem merge_isMap_iff (first : Document) (firstFields : List String) (qualifier : String)
    (second : Document) (secondFields : List String) :
    let row := merge first firstFields qualifier second secondFields
    (row.names.Nodup ↔
      ∀ name, ¬ Clashes qualifier (wanted firstFields first) (wanted secondFields second) name) ∧
    (row.names.Nodup ↔ ∃ fields, row.ordered = .obj fields ∧ (fields.map Prod.fst).Nodup) ∧
    (row.names.Nodup ↔ ∃ fields, row.toJson = .obj fields ∧
      fields.Perm (row.fields.map fun field => (field.1, field.2.json))) := by
  intro row
  refine ⟨nodup_names_merge_iff _ _ _ _ _, ?_, row.toJson_keeps_iff.symm⟩
  rw [← names_ordered]
  constructor
  · exact fun h => ⟨_, rfl, h⟩
  · rintro ⟨fields, hfields, h⟩
    cases hfields
    exact h

/-- A field that is renamed to a name of the first document: the row has the name twice, and its object has
only one of the two values. -/
theorem repeated_name :
    let row := merge ⟨"1", "users", .ofList [("k", .str "a"), ("o.k", .str "b")]⟩ [] "o"
      ⟨"2", "orders", .ofList [("k", .str "c")]⟩ []
    row.names = ["k", "o.k", "o.k"] ∧ ¬ row.names.Nodup ∧
      row.toJson = .obj [("k", .str "a"), ("o.k", .str "c")] :=
  ⟨rfl, by decide, rfl⟩

end SearchJoin.Row
