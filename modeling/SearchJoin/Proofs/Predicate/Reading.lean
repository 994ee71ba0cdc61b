import SearchJoin.Predicate.Evaluate
import SearchJoin.Proofs.Except

/-!
# Which fields a condition reads

A test of a condition looks up the condition's own field and those of its operands, and nothing else.

Main statements: `Condition.holds_congr`, a test depends on nothing but the values of these fields;
`Condition.holds_of_lookUp`, a look-up that knows as much gives the same result;
`Condition.test_eq_ok_congr`, the result of a test does not depend on where the values were found.
-/

namespace SearchJoin

/-- The field that an operand names. -/
def Operand.fieldName? : Operand → Option String
  | .literal _ => none
  | .field name => some name

theorem Join.resolve_eq_ok_iff {join : Join} {name : String} {resolved : Side × String} :
    join.resolve name = .ok resolved ↔ join.resolve? name = some resolved := by
  unfold Join.resolve
  cases join.resolve? name <;> simp

/-- The values of a document's fields. -/
def Document.lookUp (doc : Document) : Condition.LookUp := fun field => .ok (doc.get? field)

namespace Condition

variable {c : Condition}

/-- The fields that a condition names, its own first. -/
def fieldNames (c : Condition) : List String :=
  c.field :: c.operands.filterMap Operand.fieldName?

theorem operands_of_fieldOperand?_eq_some {reference : String}
    (h : c.fieldOperand? = some reference) : c.operands = [.field reference] := by
  unfold fieldOperand? at h
  split at h
  · rename_i name hoperands
    cases h
    exact hoperands
  · cases h

theorem fieldNames_of_fieldOperand?_eq_some {reference : String}
    (h : c.fieldOperand? = some reference) : c.fieldNames = [c.field, reference] := by
  rw [fieldNames, operands_of_fieldOperand?_eq_some h]
  rfl

theorem operandValues_literals (lookUp : LookUp) (values : List Value) :
    operandValues lookUp (values.map .literal) = .ok (some values) := by
  induction values with
  | nil => rfl
  | cons value values ih => rw [List.map_cons, operandValues, ih]; rfl

theorem operandValues_field (lookUp : LookUp) (name : String) :
    operandValues lookUp [.field name] = (lookUp name).map (Option.map fun value => [value]) := by
  rw [operandValues]
  rcases lookUp name with _ | _ | _ <;> rfl

/-- A look-up that knows as much finds the same operands. -/
theorem operandValues_of_lookUp {lookUp other : LookUp}
    (hknows : ∀ field value, lookUp field = .ok value → other field = .ok value)
    {operands : List Operand} {values : Option (List Value)}
    (h : operandValues lookUp operands = .ok values) :
    operandValues other operands = .ok values := by
  induction operands generalizing values with
  | nil => exact h
  | cons operand operands ih =>
    cases operand with
    | literal value =>
      rw [operandValues] at h ⊢
      obtain ⟨rest, hrest, h⟩ := bind_eq_ok.1 h
      rw [ih hrest]
      exact h
    | field name =>
      rw [operandValues] at h ⊢
      obtain ⟨value, hvalue, h⟩ := bind_eq_ok.1 h
      rw [hknows name value hvalue, ok_bind]
      cases value with
      | none => exact h
      | some value =>
        obtain ⟨rest, hrest, h⟩ := bind_eq_ok.1 h
        rw [ih hrest]
        exact h

/-- A look-up that knows as much gives the same result. -/
theorem holds_of_lookUp {lookUp other : LookUp} {b : Bool}
    (hknows : ∀ field value, lookUp field = .ok value → other field = .ok value)
    (h : c.holds lookUp = .ok b) : c.holds other = .ok b := by
  obtain ⟨value, hvalue, h⟩ := bind_eq_ok.1 h
  obtain ⟨values, hvalues, h⟩ := bind_eq_ok.1 h
  rw [holds, hknows _ _ hvalue, ok_bind, operandValues_of_lookUp hknows hvalues]
  exact h

theorem operandValues_congr {lookUp other : LookUp} {operands : List Operand}
    (h : ∀ name ∈ operands.filterMap Operand.fieldName?, lookUp name = other name) :
    operandValues lookUp operands = operandValues other operands := by
  induction operands with
  | nil => rfl
  | cons operand operands ih =>
    cases operand with
    | literal value => rw [operandValues, operandValues, ih h]
    | field name =>
      obtain ⟨hname, hrest⟩ := List.forall_mem_cons.1 h
      rw [operandValues, operandValues, hname, ih hrest]

/-- A test looks up the fields that the condition names. -/
theorem holds_congr {lookUp other : LookUp} (h : ∀ name ∈ c.fieldNames, lookUp name = other name) :
    c.holds lookUp = c.holds other := by
  obtain ⟨hfield, hoperands⟩ := List.forall_mem_cons.1 h
  rw [holds, holds, hfield, operandValues_congr hoperands]

/-- A condition with literal operands is tested with their values. -/
theorem holds_of_literals {lookUp : LookUp} {value : Option Value} (values : List Value)
    (hoperands : c.operands = values.map .literal) (hvalue : lookUp c.field = .ok value) :
    c.holds lookUp = c.test value values := by
  rw [holds, hvalue, ok_bind, hoperands, operandValues_literals, ok_bind]

/-- A condition that compares with a field is tested with its value. -/
theorem holds_of_field {lookUp : LookUp} {value : Option Value} {name : String} {x : Value}
    (hoperands : c.operands = [.field name]) (hvalue : lookUp c.field = .ok value)
    (hname : lookUp name = .ok (some x)) : c.holds lookUp = c.test value [x] := by
  rw [holds, hvalue, ok_bind, hoperands, operandValues_field, hname]
  rfl

/-- A condition that compares with a field does not hold when the field has no value. -/
theorem holds_of_missing {lookUp : LookUp} {value : Option Value} {name : String}
    (hoperands : c.operands = [.field name]) (hvalue : lookUp c.field = .ok value)
    (hname : lookUp name = .ok none) : c.holds lookUp = .ok false := by
  rw [holds, hvalue, ok_bind, hoperands, operandValues_field, hname]
  rfl

theorem test_of_child {childType : String} (hscope : c.scope = .child childType)
    (value : Option Value) (values : List Value) :
    c.test value values = .error (.unsupportedJoinPredicate (.childScope c)) := by
  unfold test
  rw [hscope]

/-- The result of a test depends on the comparison and the values, not on where they were found. -/
theorem test_eq_ok_congr {d : Condition} {value : Option Value} {values : List Value} {b : Bool}
    (hoperator : d.operator = c.operator) (hscope : d.scope = c.scope)
    (h : c.test value values = .ok b) : d.test value values = .ok b := by
  unfold test at h ⊢
  rw [hoperator, hscope]
  split at h
  · cases h
  · split at h
    -- The two pattern tests look at their operand first.
    case h_9 | h_10 =>
      split at h
      · exact h
      · cases h
    all_goals first | exact h | cases h

end Condition

end SearchJoin
