import SearchJoin.Predicate.Evaluate

/-!
# Binding predicates to a row of the first table

Binding puts the values of a row into a predicate over both tables. What the row alone decides
becomes a constant; what is left is a predicate over the second table, without its qualifier.
-/

namespace SearchJoin

/-- A predicate that is bound to a row. -/
inductive Bound where
  /-- The row decides. -/
  | constant (holds : Bool)
  /-- A predicate over the second table is left. -/
  | left (predicate : Predicate)

namespace Join

/-- The value of a field that a condition can compare with: a string, a number or a truth value. -/
def bindable? (row : Document) (field : String) : Option Value :=
  (row.get? field).filter Value.isScalar

/-- The values of a row for a condition that names no field of the second table. -/
def rowLookUp (join : Join) (condition : Condition) (row : Document) : Condition.LookUp :=
  fun field => do
    match ← join.resolve field with
    | (.first, name) => return row.get? name
    | (.second, _) => throw (.unsupportedJoinPredicate (.mixedOperands condition))

/-- A condition of the second table with the value of a row. A row without a value does not
match. -/
def substitute (condition : Condition) (value : Option Value) : Bound :=
  match value with
  | some value => .left (.leaf { condition with operands := [.literal value] })
  | none => .constant false

/-- Binds a condition to a row. -/
def bindCondition (join : Join) (condition : Condition) (row : Document) :
    Except Error Bound := do
  let (side, name) ← join.resolve condition.field
  let other ← condition.fieldOperand?.mapM join.resolve
  match side, other with
  | .second, none => return .left (.leaf { condition with field := name })
  | .second, some (.first, other) =>
    return substitute { condition with field := name } (bindable? row other)
  | .first, some (.second, other) =>
    match condition.operator.swapped? with
    | none => throw (.unsupportedJoinPredicate (.notSwappable condition))
    | some operator =>
      return substitute { condition with field := other, operator := operator }
        (bindable? row name)
  | .second, some (.second, _) => throw (.unsupportedJoinPredicate (.withinSecond condition))
  | .first, _ => return .constant (← condition.holds (join.rowLookUp condition row))

/-- What the bound children of a group say together. `kept` are the predicates that are left of the
children connected by `all`, `alternatives` those of the others. -/
structure BoundGroup where
  /-- A child is connected by `all`. -/
  hasAll : Bool := false
  /-- An alternative holds. -/
  anyHolds : Bool := false
  /-- What is left of children connected by `all`. -/
  kept : List Predicate := []
  /-- What is left of alternatives. -/
  alternatives : List Predicate := []

/-- A group of predicates that are left; without any it is the constant. -/
def regroup (connector : Connector) (predicates : List Predicate) (constant : Bool) : Bound :=
  if predicates.isEmpty then .constant constant else .left (.group connector predicates)

/-- The group as one bound predicate. -/
def BoundGroup.toBound (group : BoundGroup) (connector : Connector) (isEmpty : Bool) : Bound :=
  if group.hasAll then regroup connector group.kept true
  else if group.anyHolds || isEmpty then .constant true
  else regroup connector group.alternatives false

mutual

/-- Binds a predicate to a row. -/
def bind (join : Join) (row : Document) : Predicate → Except Error Bound
  | .leaf condition => join.bindCondition condition row
  | .group connector children => do
    match ← bindChildren join row {} children with
    | some group => return group.toBound connector children.isEmpty
    | none => return .constant false

/-- Binds the children of a group that are left; none when a child connected by `all` is false. -/
def bindChildren (join : Join) (row : Document) (group : BoundGroup) :
    List Predicate → Except Error (Option BoundGroup)
  | [] => .ok (some group)
  | child :: children => do
    match child.connector, ← bind join row child with
    | .all, .constant false => return none
    | .all, .constant true => bindChildren join row { group with hasAll := true } children
    | .all, .left predicate =>
      bindChildren join row
        { group with hasAll := true, kept := group.kept ++ [predicate] } children
    | .any, .constant holds =>
      bindChildren join row { group with anyHolds := group.anyHolds || holds } children
    | .any, .left predicate =>
      bindChildren join row
        { group with alternatives := group.alternatives ++ [predicate] } children

end

/-- A condition of the `ON` clause compares a field of each table, and one that names the first
table's field first can swap its operands. -/
def checkConnected (join : Join) (condition : Condition) : Except Error Unit := do
  match condition.fieldOperand? with
  | none => throw (.unsupportedJoinPredicate (.notTwoFields condition))
  | some reference =>
    let (side, _) ← join.resolve condition.field
    let (other, _) ← join.resolve reference
    if side = other then throw (.unsupportedJoinPredicate (.oneTable condition))
    if side = .first ∧ condition.operator.swapped? = none then
      throw (.unsupportedJoinPredicate (.notSwappable condition))

/-- The fields of the first and the second table that a condition of the `ON` clause compares. -/
def connectedFields (join : Join) (condition : Condition) : Except Error (String × String) := do
  join.checkConnected condition
  let (side, name) ← join.resolve condition.field
  let (_, other) ← join.resolve (condition.fieldOperand?.getD "")
  match side with
  | .first => return (name, other)
  | .second => return (other, name)

/-- Binds a condition of the `ON` clause to a row; none when the row has no value to compare
with. -/
def bindConnected (join : Join) (condition : Condition) (row : Document) :
    Except Error (Option Condition) := do
  join.checkConnected condition
  match ← join.bindCondition condition row with
  | .left (.leaf bound) => return some { bound with connector := .all }
  | _ => return none

end Join

end SearchJoin
