import SearchJoin.Proofs.Join.EquiJoin
import SearchJoin.Proofs.Join.KeyPart
import SearchJoin.Proofs.Join.Requests
import SearchJoin.Proofs.Number.Order

/-!
# The probe finds every document that joins

The probed side of a hash join is searched for the parts that the keys have in each field, field by field.
A document with one of the keys is found, however its numbers are spelled: a value equals what its part in
the key stands for. Combinations of parts that no key has are found as well, and left out afterwards.

Main statement: `HashJoin.selects_probeRequest_buildTable`.
-/

namespace SearchJoin

theorem Value.equal_of_exactly {a b : Value} (h : a.exactly b = true) : a.equal b = true := by
  obtain ⟨json, normal⟩ := a
  obtain ⟨json', normal'⟩ := b
  cases json <;> cases json' <;> simp only [exactly, Bool.false_eq_true] at h
  case bool.bool => exact h
  case str.str => exact h
  case num.num x y =>
    have hunits : x.exactUnits = y.exactUnits := beq_iff_eq.1 h
    exact Value.equal_num.2 (Number.order_eq_eq_of_exactUnits_eq hunits)

/-- A query on a document: a field is equal to one of the values, and `other` tests all further
queries. -/
def Query.matchesEqual (other : Query → Document → Bool) (doc : Document) : Query → Bool
  | .terms field values =>
    (doc.get? field).any fun held => values.any fun value => held.equal value
  | query => other query doc

namespace HashJoin

variable {plan : HashJoin} {table : KeyTable} {other : Query → Document → Bool} {doc : Document}
  {key : Key}

/-- The choices let every document through that has a key of the table. -/
theorem all_choices_of_mem_keys
    (hkey : Key.ofDocument? (plan.keyFields plan.probeSide) doc = some key)
    (hmem : key ∈ table.keys) :
    (plan.choices table).all (Query.selects (Query.matchesEqual other doc)) = true := by
  rw [List.all_eq_true]
  intro choice hchoice
  obtain ⟨field, held, part, parts, rfl, hheld, hpart, hlisted⟩ :=
    exists_part_of_mem_choices hkey hmem hchoice
  have hequal : held.equal part.toValue = true :=
    Value.equal_of_exactly (KeyPart.exactly_toValue hpart)
  refine (Option.any_eq_true _ _).2 ⟨held, hheld, ?_⟩
  exact List.any_eq_true.2 ⟨part.toValue, List.mem_map_of_mem hlisted, hequal⟩

/-- What the choices let through has in each key field a value that some key of the table has there. -/
theorem exists_key_of_all_choices
    (h : (plan.choices table).all (Query.selects (Query.matchesEqual other doc)) = true)
    {position : Nat} {field : String} (hfield : (plan.keyFields plan.probeSide)[position]? = some field) :
    ∃ key ∈ table.keys, ∃ part ∈ key[position]?, ∃ held ∈ doc.get? field,
      held.equal part.toValue = true := by
  have hmem : (field, position) ∈ (plan.keyFields plan.probeSide).zipIdx :=
    List.mem_zipIdx_iff_getElem?.2 hfield
  have hchoice := List.all_eq_true.1 h _ (List.mem_map_of_mem hmem)
  obtain ⟨held, hheld, hany⟩ := (Option.any_eq_true _ _).1 hchoice
  obtain ⟨value, hvalue, hequal⟩ := List.any_eq_true.1 hany
  obtain ⟨part, hpart, rfl⟩ := List.mem_map.1 hvalue
  obtain ⟨key, hkey, hat⟩ := KeyTable.mem_distinctParts.1 hpart
  exact ⟨key, hkey, part, hat, held, hheld, hequal⟩

/-- The request of the probed side selects every document that the table's own filter selects and that has
the key of a document of the build side. It selects nothing that the own filter does not, nor a document
without a value that some key has in a key field. -/
theorem selects_probeRequest_buildTable {build : List Document} {request : Request}
    (hrequest : plan.probeRequest (plan.buildTable build) = .ok request)
    (other : Query → Document → Bool) (doc : Document) :
    ((plan.join.table plan.probeSide).selects (Query.matchesEqual other doc) = true →
      ∀ key ∈ (plan.buildTable build).keys,
        Key.ofDocument? (plan.keyFields plan.probeSide) doc = some key →
        request.query.selects (Query.matchesEqual other doc) = true) ∧
      (request.query.selects (Query.matchesEqual other doc) = true →
        (plan.join.table plan.probeSide).selects (Query.matchesEqual other doc) = true ∧
          ∀ (position : Nat) (field : String),
            (plan.keyFields plan.probeSide)[position]? = some field →
              ∃ key ∈ (plan.buildTable build).keys, ∃ part ∈ key[position]?,
                ∃ held ∈ doc.get? field, held.equal part.toValue = true) := by
  obtain ⟨-, -, -, hselects⟩ := selects_probeRequest hrequest
  rw [hselects]
  constructor
  · intro hown key hmem hkey
    rw [hown, all_choices_of_mem_keys hkey hmem]
    rfl
  · intro hboth
    obtain ⟨hown, hchoices⟩ := Bool.and_eq_true_iff.1 hboth
    exact ⟨hown, fun position field hfield => exists_key_of_all_choices hchoices hfield⟩

namespace Sample

/-- Parcels and the open depots of their region. -/
def parcels : HashJoin where
  join := {
    first := ⟨"p", "parcels", [], none, .empty⟩
    second := ⟨"d", "depots", [], some (.leaf (.eq "open" (.bool true))), .empty⟩
    conditions := [.fields "p.depot" .eq "d.id", .fields "p.region" .eq "d.region"]
    filter := none
    hints := []
    limit := none }
  options := ⟨100, 2, 1000, 1000, .first, none⟩
  keys := [⟨"depot", "id"⟩, ⟨"region", "region"⟩]

/-- A parcel for a depot. -/
def parcel (depot : Value) (region : String) : Document :=
  ⟨"", "parcels", .ofList [("depot", depot), ("region", .str region)]⟩

/-- Parcels for two depots. -/
def built : List Document := [parcel KeyPart.Sample.one "eu", parcel KeyPart.Sample.limit "us"]

/-- The depot of number one, which is written with a point. -/
def depot : Document :=
  ⟨"", "depots",
    .ofList [("id", KeyPart.Sample.onePointZero), ("open", .bool true), ("region", .str "eu")]⟩

/-- A query for a truth value. -/
def matchesTerm : Query → Document → Bool
  | .term field ⟨.bool b, _⟩, doc => (doc.get? field).any fun held => held.same (.bool b)
  | _, _ => false

end Sample

/-- The key is one and the region, whichever way the one is written. -/
theorem selects_probeRequest_buildTable_sample :
    ∃ request, Sample.parcels.probeRequest (Sample.parcels.buildTable Sample.built) = .ok request ∧
      (Sample.parcels.join.table Sample.parcels.probeSide).selects
        (Query.matchesEqual Sample.matchesTerm Sample.depot) = true ∧
      Key.ofDocument? (Sample.parcels.keyFields Sample.parcels.probeSide) Sample.depot =
        some [.int ⟨1, by decide⟩, .str "eu"] ∧
      [.int ⟨1, by decide⟩, .str "eu"] ∈ (Sample.parcels.buildTable Sample.built).keys ∧
      request.query.selects (Query.matchesEqual Sample.matchesTerm Sample.depot) = true := by
  have hown : (Sample.parcels.join.table Sample.parcels.probeSide).selects
      (Query.matchesEqual Sample.matchesTerm Sample.depot) = true := rfl
  have hkey : Key.ofDocument? (Sample.parcels.keyFields Sample.parcels.probeSide) Sample.depot =
      some [.int ⟨1, by decide⟩, .str "eu"] := by decide +kernel
  have hmem : [.int ⟨1, by decide⟩, .str "eu"] ∈ (Sample.parcels.buildTable Sample.built).keys := by
    decide +kernel
  have hrequest : Sample.parcels.probeRequest (Sample.parcels.buildTable Sample.built) = .ok _ := rfl
  obtain ⟨hselects, -⟩ :=
    selects_probeRequest_buildTable hrequest Sample.matchesTerm Sample.depot
  exact ⟨_, hrequest, hown, hkey, hmem, hselects hown _ hmem hkey⟩

end HashJoin

end SearchJoin
