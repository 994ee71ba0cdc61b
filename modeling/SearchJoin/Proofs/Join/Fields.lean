import SearchJoin.Proofs.Join.Requests
import SearchJoin.Proofs.Predicate.Reading

/-!
# Which fields a join names

The conditions of the `ON` clause and the predicate over both tables name fields of either side. The
key fields of a hash join are those that the `ON` clause names.

Main statement: `HashJoin.mem_keyFields_iff`.
-/

namespace SearchJoin

namespace Join

variable {join : Join} {side : Side} {conditions : List Condition} {field : String}

/-- The conditions of the predicate over both tables. -/
def filterConditions (join : Join) : List Condition :=
  (join.filter.map Predicate.conditions).getD []

/-- The fields of a side that conditions name, without the table's qualifier. -/
def fieldsNamed (join : Join) (side : Side) (conditions : List Condition) : List String :=
  conditions.flatMap fun c => c.fieldNames.filterMap fun name =>
    match join.resolve? name with
    | some (owner, field) => if owner = side then some field else none
    | none => none

theorem mem_fieldsNamed : field ∈ join.fieldsNamed side conditions ↔
    ∃ c ∈ conditions, ∃ name ∈ c.fieldNames, join.resolve? name = some (side, field) := by
  unfold fieldsNamed
  rw [List.mem_flatMap]
  refine exists_congr fun c => and_congr_right fun _ => ?_
  rw [List.mem_filterMap]
  refine exists_congr fun name => and_congr_right fun _ => ?_
  cases join.resolve? name with
  | none => simp
  | some resolved =>
    obtain ⟨owner, found⟩ := resolved
    by_cases howner : owner = side <;> simp [howner]

end Join

namespace HashJoin

variable {join : Join} {options : JoinOptions} {plan : HashJoin} {side : Side}

/-- A condition of the `ON` clause names one field of each side, and these are its key fields. -/
theorem mem_fieldsNamed_of_keyPair {c : Condition} {pair : KeyPair} {field : String}
    (h : keyPair join c = .ok pair) :
    (∃ name ∈ c.fieldNames, join.resolve? name = some (side, field)) ↔ field = pair.field side := by
  obtain ⟨-, reference, hreference, hsides⟩ :=
    Join.exists_of_connection?_eq_some (connection?_of_keyPair_eq_ok h)
  rw [Condition.fieldNames_of_fieldOperand?_eq_some hreference]
  simp only [List.mem_cons, List.not_mem_nil, or_false, exists_eq_or_imp, exists_eq_left]
  rcases hsides with ⟨hfield, hother, -⟩ | ⟨hfield, hother, -⟩
  · rw [Join.resolve_eq_ok_iff.1 hfield, Join.resolve_eq_ok_iff.1 hother]
    cases side <;> simp [KeyPair.field, eq_comm]
  · rw [Join.resolve_eq_ok_iff.1 hfield, Join.resolve_eq_ok_iff.1 hother]
    cases side <;> simp [KeyPair.field, eq_comm]

/-- The key fields of a side are the fields that the `ON` clause names there. -/
theorem mem_keyFields_iff (h : ofJoin join options = .ok plan) {field : String} :
    field ∈ plan.keyFields side ↔ field ∈ join.fieldsNamed side join.conditions := by
  obtain ⟨keys, hkeys, rfl⟩ := exists_keys_of_ofJoin_eq_ok h
  rw [Join.mem_fieldsNamed, keyFields, List.mem_map]
  have heach := mapM_eq_ok_iff.1 hkeys
  clear hkeys h
  generalize join.conditions = conditions at heach
  induction heach with
  | nil => simp
  | cons hpair _ ih =>
    rw [List.exists_mem_cons_iff, List.exists_mem_cons_iff, mem_fieldsNamed_of_keyPair hpair]
    exact or_congr eq_comm ih

end HashJoin

end SearchJoin
