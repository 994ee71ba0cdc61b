import SearchJoin.Proofs.Predicate.Reading
import SearchJoin.Proofs.Predicate.Truth

/-!
# Conditions that can always be tested

Whether the test of a condition can fail is seen from the condition alone: from its scope, its operator
and its operands. Only a pattern has to be a literal for this.

Main statement: `Condition.exists_holds_eq_ok`.
-/

namespace SearchJoin

namespace Condition

variable {c : Condition}

/-- The operands are a single string. -/
def isPattern : List Operand → Bool
  | [.literal pattern] => pattern.string?.isSome
  | _ => false

/-- The test of the condition has a result, whatever the values of the fields are. -/
def isTestable (c : Condition) : Bool :=
  (match c.scope with
    | .child _ => false
    | _ => true) &&
  match c.operator with
  | .geoIntersects => false
  | .like | .notLike => isPattern c.operands
  | operator => (expectedOperands? operator).all fun count => c.operands.length == count

theorem length_of_operandValues_eq_some {lookUp : LookUp} {operands : List Operand}
    {values : List Value} (h : operandValues lookUp operands = .ok (some values)) :
    values.length = operands.length := by
  induction operands generalizing values with
  | nil => cases h; rfl
  | cons operand operands ih =>
    cases operand with
    | literal value =>
      obtain ⟨rest, hrest, h⟩ := bind_eq_ok.1 h
      cases rest with
      | none => cases h
      | some rest => cases h; rw [List.length_cons, List.length_cons, ih hrest]
    | field name =>
      obtain ⟨value, hvalue, h⟩ := bind_eq_ok.1 h
      cases value with
      | none => cases h
      | some value =>
        obtain ⟨rest, hrest, h⟩ := bind_eq_ok.1 h
        cases rest with
        | none => cases h
        | some rest => cases h; rw [List.length_cons, List.length_cons, ih hrest]

theorem exists_operandValues_eq_ok {lookUp : LookUp} {operands : List Operand}
    (hknown : ∀ name ∈ operands.filterMap Operand.fieldName?, ∃ value, lookUp name = .ok value) :
    ∃ values, operandValues lookUp operands = .ok values := by
  induction operands with
  | nil => exact ⟨_, rfl⟩
  | cons operand operands ih =>
    cases operand with
    | literal value =>
      obtain ⟨values, hvalues⟩ := ih hknown
      rw [operandValues, hvalues]
      exact ⟨_, rfl⟩
    | field name =>
      obtain ⟨value, hvalue⟩ := hknown name List.mem_cons_self
      obtain ⟨values, hvalues⟩ := ih fun other hother => hknown other (List.mem_cons_of_mem _ hother)
      rw [operandValues, hvalue, ok_bind]
      cases value with
      | none => exact ⟨_, rfl⟩
      | some value =>
        rw [hvalues]
        exact ⟨_, rfl⟩

theorem exists_of_isPattern {lookUp : LookUp} {operands : List Operand} {values : List Value}
    (h : isPattern operands = true) (hvalues : operandValues lookUp operands = .ok (some values)) :
    ∃ pattern text, values = [pattern] ∧ pattern.string? = some text := by
  match operands, h with
  | [.literal pattern], h =>
    obtain ⟨text, htext⟩ := Option.isSome_iff_exists.1 h
    cases hvalues
    exact ⟨pattern, text, rfl, htext⟩

theorem exists_test_eq_ok {lookUp : LookUp} {values : List Value} (h : c.isTestable = true)
    (hvalues : operandValues lookUp c.operands = .ok (some values)) (value : Option Value) :
    ∃ b, c.test value values = .ok b := by
  have hlength := length_of_operandValues_eq_some hvalues
  obtain ⟨hscope, hoperands⟩ := Bool.and_eq_true_iff.1 h
  unfold test
  split
  · rename_i childType hchild
    rw [hchild] at hscope
    cases hscope
  · cases hop : c.operator with
    | eq | ne | gt | ge | lt | le =>
      simp only [hop, expectedOperands?, Option.all_some, beq_iff_eq, ← hlength,
        List.length_eq_one_iff] at hoperands
      obtain ⟨x, rfl⟩ := hoperands
      exact ⟨_, rfl⟩
    | between | notBetween =>
      simp only [hop, expectedOperands?, Option.all_some, beq_iff_eq, ← hlength,
        List.length_eq_two] at hoperands
      obtain ⟨low, high, rfl⟩ := hoperands
      exact ⟨_, rfl⟩
    | like | notLike =>
      simp only [hop] at hoperands
      obtain ⟨pattern, text, rfl, htext⟩ := exists_of_isPattern hoperands hvalues
      simp only [htext]
      exact ⟨_, rfl⟩
    | isIn | notIn => exact ⟨_, rfl⟩
    | isNull | isNotNull =>
      simp only [hop, expectedOperands?, Option.all_some, beq_iff_eq, ← hlength,
        List.length_eq_zero_iff] at hoperands
      rw [hoperands]
      exact ⟨_, rfl⟩
    | geoIntersects => simp only [hop, Bool.false_eq_true] at hoperands

/-- A condition that can always be tested has a result when its fields can be looked up. -/
theorem exists_holds_eq_ok {lookUp : LookUp} (h : c.isTestable = true)
    (hknown : ∀ name ∈ c.fieldNames, ∃ value, lookUp name = .ok value) :
    ∃ b, c.holds lookUp = .ok b := by
  obtain ⟨value, hvalue⟩ := hknown c.field List.mem_cons_self
  obtain ⟨values, hvalues⟩ :=
    exists_operandValues_eq_ok fun name hname => hknown name (List.mem_cons_of_mem _ hname)
  rw [holds, hvalue, ok_bind, hvalues, ok_bind]
  cases values with
  | none => exact ⟨false, rfl⟩
  | some values => exact exists_test_eq_ok h hvalues value

end Condition

end SearchJoin
