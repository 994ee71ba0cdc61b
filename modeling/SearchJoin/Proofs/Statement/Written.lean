import SearchJoin.Proofs.Except
import SearchJoin.Proofs.Json.Normal
import SearchJoin.Statement.Codec.Join

/-!
# Reading statements that were written

What a statement is written as is a JSON value, and it is read as the same statement.

Main statement: `Statement.reads_written`.
-/

namespace SearchJoin

namespace Json

variable {α : Type} {decode : Json → Option α} {encode : α → Json}

theorem uint64?_ofUInt64 (n : UInt64) : uint64? (ofUInt64 n) = some n := by
  have hvalue : (0 : Int) ≤ (WordInt.ofUInt64 n).value := Int.natCast_nonneg _
  have hword : UInt64.ofNat (WordInt.ofUInt64 n).value.toNat = n := by
    rw [WordInt.ofUInt64, Int.toNat_natCast, UInt64.ofNat_toNat]
  rw [ofUInt64, uint64?, Number.ofUInt64, Number.toUInt64?, WordInt.toUInt64?, if_pos hvalue, hword]

theorem list?_arr_map {xs : List α} (h : ∀ x ∈ xs, decode (encode x) = some x) :
    list? decode (.arr (xs.map encode)) = some xs := by
  rw [list?, mapM_eq_some_iff, List.forall₂_map_left_iff, List.forall₂_same]
  exact h

/-- What is there is not written as `null`, so that it is told apart from what is missing. -/
theorem optional?_ofOption (hnull : ∀ x, encode x ≠ .null) (h : ∀ x, decode (encode x) = some x)
    (x : Option α) : optional? decode (some (ofOption encode x)) = some x := by
  cases x with
  | none => rfl
  | some x =>
    have hread : optional? decode (some (encode x)) = (decode (encode x)).map some := by
      cases hencode : encode x with
      | null => exact absurd hencode (hnull x)
      | _ => rfl
    rw [ofOption, hread, h x]
    rfl

theorem optional?_ofUInt64 (n : Option UInt64) :
    optional? uint64? (some (ofOption ofUInt64 n)) = some n := by
  have hnull : ∀ n, ofUInt64 n ≠ .null := by
    intro n h
    cases h
  exact optional?_ofOption hnull uint64?_ofUInt64 n

theorem normal_ofOption_ofUInt64 (n : Option UInt64) : (ofOption ofUInt64 n).Normal := by
  have hword : ∀ n, (ofUInt64 n).Normal := by
    intro n
    trivial
  exact normal_ofOption hword n

theorem map?_obj_entries (map : SortedMap α) (h : ∀ x, decode (encode x) = some x) :
    map? decode (.obj (map.entries.map fun entry => (entry.1, encode entry.2))) = some map := by
  have hentries : (map.entries.map fun entry => (entry.1, encode entry.2)).mapM
      (fun field => (decode field.2).map fun x => (field.1, x)) = some map.entries := by
    rw [mapM_eq_some_iff, List.forall₂_map_left_iff, List.forall₂_same]
    intro entry _
    rw [h]
    rfl
  rw [map?, hentries, Option.map_some, SortedMap.ofList_entries]

end Json

/-! ## Conditions -/

theorem Connector.ofJson?_toJson (connector : Connector) :
    ofJson? connector.toJson = some connector := by
  cases connector <;> rfl

theorem Operator.ofJson?_toJson (operator : Operator) : ofJson? operator.toJson = some operator := by
  cases operator <;> rfl

namespace Scope

theorem ofJson?_toJson (scope : Scope) : ofJson? scope.toJson = some scope := by
  cases scope <;> rfl

theorem normal_toJson (scope : Scope) : scope.toJson.Normal := by
  cases scope with
  | document =>
    have hnames : ["kind"].Pairwise (· < ·) := by decide
    exact Json.normal_obj hnames ⟨trivial, trivial⟩
  | nested path =>
    have hnames : ["kind", "path"].Pairwise (· < ·) := by decide
    exact Json.normal_obj hnames ⟨trivial, trivial, trivial⟩
  | child childType =>
    have hnames : ["child_type", "kind"].Pairwise (· < ·) := by decide
    exact Json.normal_obj hnames ⟨trivial, trivial, trivial⟩

end Scope

namespace Operand

theorem ofJson?_toJson (operand : Operand) : ofJson? operand.toJson = some operand := by
  cases operand with
  | literal value =>
    have hread : ofJson? (toJson (.literal value)) = some (.literal (.ofJson value.json)) := rfl
    rw [hread, Value.ofJson_json]
  | field name => rfl

theorem normal_toJson (operand : Operand) : operand.toJson.Normal := by
  have hnames : ["kind", "value"].Pairwise (· < ·) := by decide
  cases operand with
  | literal value => exact Json.normal_obj hnames ⟨trivial, value.normal, trivial⟩
  | field name => exact Json.normal_obj hnames ⟨trivial, trivial, trivial⟩

end Operand

namespace Condition

theorem ofJson?_toJson (c : Condition) : ofJson? c.toJson = some c := by
  have hoperands : Json.list? Operand.ofJson? (.arr (c.operands.map Operand.toJson)) =
      some c.operands := Json.list?_arr_map fun operand _ => operand.ofJson?_toJson
  have hread : ofJson? c.toJson = (do
      let connector ← Connector.ofJson? c.connector.toJson
      let operator ← Operator.ofJson? c.operator.toJson
      let operands ← Json.list? Operand.ofJson? (.arr (c.operands.map Operand.toJson))
      let scope ← Scope.ofJson? c.scope.toJson
      return ⟨connector, c.field, operator, operands, scope⟩) := rfl
  rw [hread, Connector.ofJson?_toJson, Operator.ofJson?_toJson, hoperands, Scope.ofJson?_toJson]
  rfl

theorem normal_toJson (c : Condition) : c.toJson.Normal := by
  have hnames : ["connector", "field", "operands", "operator", "scope"].Pairwise (· < ·) := by
    decide
  have hoperands : (Json.arr (c.operands.map Operand.toJson)).Normal :=
    Json.normal_arr_map fun operand _ => operand.normal_toJson
  exact Json.normal_obj hnames
    ⟨trivial, trivial, hoperands, trivial, c.scope.normal_toJson, trivial⟩

end Condition

/-! ## Predicates -/

namespace Predicate

mutual

theorem ofJson?_toJson : (p : Predicate) → ofJson? p.toJson = some p
  | .leaf condition => by
    have hread : ofJson? (toJson (.leaf condition)) =
        (Condition.ofJson? condition.toJson).map .leaf := by
      simp only [toJson, ofJson?, if_true]
    rw [hread, condition.ofJson?_toJson]
    rfl
  | .group connector children => by
    have hread : ofJson? (toJson (.group connector children)) =
        (Connector.ofJson? connector.toJson).bind fun connector =>
          (listOfJson? (listToJson children)).map fun children => .group connector children := by
      simp [toJson, ofJson?, groupOfJson?, connectorField?, childrenField?, childrenOfJson?,
        Json.fieldOnce?, Json.required?]
    rw [hread, connector.ofJson?_toJson, listOfJson?_listToJson children]
    rfl

theorem listOfJson?_listToJson : (children : List Predicate) →
    listOfJson? (listToJson children) = some children
  | [] => by rw [listToJson, listOfJson?]
  | child :: children => by
    rw [listToJson, listOfJson?, ofJson?_toJson child, listOfJson?_listToJson children]
    rfl

end

mutual

theorem normal_toJson : (p : Predicate) → p.toJson.Normal
  | .leaf condition => by
    have hnames : ["leaf"].Pairwise (· < ·) := by decide
    rw [toJson]
    exact Json.normal_obj hnames ⟨condition.normal_toJson, trivial⟩
  | .group connector children => by
    have hkind : ["group"].Pairwise (· < ·) := by decide
    have hnames : ["children", "connector"].Pairwise (· < ·) := by decide
    have hchildren : (Json.arr (listToJson children)).Normal := normalItems_listToJson children
    rw [toJson]
    exact Json.normal_obj hkind ⟨Json.normal_obj hnames ⟨hchildren, trivial, trivial⟩, trivial⟩

theorem normalItems_listToJson : (children : List Predicate) →
    Json.NormalItems (listToJson children)
  | [] => by
    rw [listToJson]
    trivial
  | child :: children => by
    rw [listToJson]
    exact ⟨normal_toJson child, normalItems_listToJson children⟩

end

theorem toJson_ne_null (p : Predicate) : p.toJson ≠ .null := by
  cases p with
  | leaf condition => rw [toJson]; intro h; cases h
  | group connector children => rw [toJson]; intro h; cases h

theorem optional?_toJson (filter : Option Predicate) :
    Json.optional? ofJson? (some (.ofOption toJson filter)) = some filter :=
  Json.optional?_ofOption toJson_ne_null ofJson?_toJson filter

end Predicate

/-! ## Tables, hints and orders -/

theorem FieldType.ofJson?_toJson (type : FieldType) : ofJson? type.toJson = some type := by
  cases type <;> rfl

namespace Table

theorem ofJson?_toJson (table : Table) : ofJson? table.toJson = some table := by
  have hfields : Json.list? Json.string? (.ofStrings table.fields) = some table.fields :=
    Json.list?_arr_map fun _ _ => rfl
  have hmapping : Json.map? FieldType.ofJson?
      (.obj (table.mapping.entries.map fun entry => (entry.1, entry.2.toJson))) =
      some table.mapping := Json.map?_obj_entries table.mapping FieldType.ofJson?_toJson
  have hread : ofJson? table.toJson = (do
      let fields ← Json.list? Json.string? (.ofStrings table.fields)
      let filter ← Json.optional? Predicate.ofJson? (some (.ofOption Predicate.toJson table.filter))
      let mapping ← Json.map? FieldType.ofJson?
        (.obj (table.mapping.entries.map fun entry => (entry.1, entry.2.toJson)))
      return ⟨table.qualifier, table.index, fields, filter, mapping⟩) := rfl
  rw [hread, hfields, Predicate.optional?_toJson, hmapping]
  rfl

theorem normal_toJson (table : Table) : table.toJson.Normal := by
  have hnames : ["alias", "fields", "index", "mapping", "where_clause"].Pairwise (· < ·) := by
    decide
  have hfields : (Json.ofStrings table.fields).Normal := Json.normal_arr_map fun _ _ => trivial
  have hmapping : (Json.obj (table.mapping.entries.map
      fun entry => (entry.1, entry.2.toJson))).Normal := by
    refine Json.normal_obj ?_ (Json.normalFields_iff.2 ?_)
    · rw [List.map_map]
      exact List.pairwise_map.2 table.mapping.sorted
    · intro field hfield
      obtain ⟨entry, -, rfl⟩ := List.mem_map.1 hfield
      trivial
  exact Json.normal_obj hnames ⟨trivial, hfields, trivial, hmapping,
    Json.normal_ofOption Predicate.normal_toJson table.filter, trivial⟩

end Table

namespace Hint

theorem ofJson?_toJson (hint : Hint) : ofJson? hint.toJson = some hint := by
  cases hint with
  | forceNestedLoop => rfl
  | multiSearchSize size =>
    have hread : ofJson? (toJson (.multiSearchSize size)) =
        (Json.uint64? (.ofUInt64 size)).map .multiSearchSize := rfl
    rw [hread, Json.uint64?_ofUInt64]
    rfl
  | joinLimit first second =>
    have hread : ofJson? (toJson (.joinLimit first second)) = (do
        let first ← Json.uint64? (.ofUInt64 first)
        let second ← Json.uint64? (.ofUInt64 second)
        return .joinLimit first second) := rfl
    rw [hread, Json.uint64?_ofUInt64, Json.uint64?_ofUInt64]
    rfl
  | hashBuildSide side =>
    cases side <;> rfl

theorem normal_toJson (hint : Hint) : hint.toJson.Normal := by
  cases hint with
  | forceNestedLoop =>
    have hnames : ["type"].Pairwise (· < ·) := by decide
    exact Json.normal_obj hnames ⟨trivial, trivial⟩
  | multiSearchSize size =>
    have hnames : ["size", "type"].Pairwise (· < ·) := by decide
    exact Json.normal_obj hnames ⟨trivial, trivial, trivial⟩
  | joinLimit first second =>
    have hnames : ["first", "second", "type"].Pairwise (· < ·) := by decide
    exact Json.normal_obj hnames ⟨trivial, trivial, trivial, trivial⟩
  | hashBuildSide side =>
    have hnames : ["side", "type"].Pairwise (· < ·) := by decide
    exact Json.normal_obj hnames ⟨trivial, trivial, trivial⟩

end Hint

namespace OrderBy

theorem ofJson?_toJson (order : OrderBy) : ofJson? order.toJson = some order := by
  obtain ⟨field, direction⟩ := order
  cases direction <;> rfl

theorem normal_toJson (order : OrderBy) : order.toJson.Normal := by
  have hnames : ["field", "order"].Pairwise (· < ·) := by decide
  exact Json.normal_obj hnames ⟨trivial, trivial, trivial⟩

end OrderBy

/-! ## Statements -/

namespace Select

theorem ofJson?_toJson (select : Select) : ofJson? select.toJson = some select := by
  have horders : Json.list? OrderBy.ofJson? (.arr (select.orderBy.map OrderBy.toJson)) =
      some select.orderBy := Json.list?_arr_map fun order _ => order.ofJson?_toJson
  have hread : ofJson? select.toJson = (do
      let table ← Table.ofJson? select.table.toJson
      let offset ← Json.optional? Json.uint64? (some (.ofOption .ofUInt64 select.offset))
      let limit ← Json.optional? Json.uint64? (some (.ofOption .ofUInt64 select.limit))
      let orders ← Json.list? OrderBy.ofJson? (.arr (select.orderBy.map OrderBy.toJson))
      return ⟨table, offset, limit, orders⟩) := rfl
  rw [hread, select.table.ofJson?_toJson, Json.optional?_ofUInt64, Json.optional?_ofUInt64, horders]
  rfl

theorem normal_toJson (select : Select) : select.toJson.Normal := by
  have hnames : ["limit", "offset", "order_by", "table"].Pairwise (· < ·) := by decide
  have horders : (Json.arr (select.orderBy.map OrderBy.toJson)).Normal :=
    Json.normal_arr_map fun order _ => order.normal_toJson
  exact Json.normal_obj hnames ⟨Json.normal_ofOption_ofUInt64 _, Json.normal_ofOption_ofUInt64 _,
    horders, select.table.normal_toJson, trivial⟩

end Select

namespace Join

theorem ofJson?_toJson (join : Join) : ofJson? join.toJson = some join := by
  have hconditions : Json.list? Condition.ofJson? (.arr (join.conditions.map Condition.toJson)) =
      some join.conditions := Json.list?_arr_map fun c _ => c.ofJson?_toJson
  have hhints : Json.list? Hint.ofJson? (.arr (join.hints.map Hint.toJson)) = some join.hints :=
    Json.list?_arr_map fun hint _ => hint.ofJson?_toJson
  have hread : ofJson? join.toJson = (do
      let first ← Table.ofJson? join.first.toJson
      let second ← Table.ofJson? join.second.toJson
      let conditions ← Json.list? Condition.ofJson? (.arr (join.conditions.map Condition.toJson))
      let filter ← Json.optional? Predicate.ofJson? (some (.ofOption Predicate.toJson join.filter))
      let hints ← Json.list? Hint.ofJson? (.arr (join.hints.map Hint.toJson))
      let limit ← Json.optional? Json.uint64? (some (.ofOption .ofUInt64 join.limit))
      return ⟨first, second, conditions, filter, hints, limit⟩) := rfl
  rw [hread, join.first.ofJson?_toJson, join.second.ofJson?_toJson, hconditions,
    Predicate.optional?_toJson, hhints, Json.optional?_ofUInt64]
  rfl

theorem normal_toJson (join : Join) : join.toJson.Normal := by
  have hnames : ["connected_conditions", "connected_where", "first", "hints", "limit",
      "second"].Pairwise (· < ·) := by decide
  have hconditions : (Json.arr (join.conditions.map Condition.toJson)).Normal :=
    Json.normal_arr_map fun c _ => c.normal_toJson
  have hhints : (Json.arr (join.hints.map Hint.toJson)).Normal :=
    Json.normal_arr_map fun hint _ => hint.normal_toJson
  have hlimit : (Json.ofOption .ofUInt64 join.limit).Normal := Json.normal_ofOption_ofUInt64 _
  exact Json.normal_obj hnames
    ⟨hconditions, Json.normal_ofOption Predicate.normal_toJson join.filter,
      join.first.normal_toJson, hhints, hlimit, join.second.normal_toJson, trivial⟩

end Join

/-- A join and a selection are written as JSON values, in which no name is repeated, and what is written
is read as the same statement: writing loses nothing. -/
theorem Statement.reads_written :
    (∀ join : Join, join.toJson.Normal ∧ Join.ofJson? join.toJson = some join) ∧
      ∀ select : Select, select.toJson.Normal ∧ Select.ofJson? select.toJson = some select := by
  constructor
  · intro join
    exact ⟨join.normal_toJson, join.ofJson?_toJson⟩
  · intro select
    exact ⟨select.normal_toJson, select.ofJson?_toJson⟩

end SearchJoin
