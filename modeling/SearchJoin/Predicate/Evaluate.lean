import SearchJoin.Backend.Document
import SearchJoin.Error
import SearchJoin.Predicate.Like
import SearchJoin.Predicate.Order

/-!
# Testing predicates on documents

`Predicate.holds` tests a predicate with a look-up for the values of fields. A condition on an array
holds when it holds for an item. A group reads as the engine reads its `bool` queries: the children
that are connected by `all` have to hold, and the others count only beside no such child.
-/

namespace SearchJoin

namespace Condition

/-- How many operands a test needs, if their number is fixed. -/
def expectedOperands? : Operator → Option Nat
  | .isNull | .isNotNull => some 0
  | .between | .notBetween => some 2
  | .isIn | .notIn => none
  | _ => some 1

/-- The test holds for the value, or for an item of it if it is an array. -/
def anyValue (test : Value → Bool) (value : Value) : Bool :=
  match value.items? with
  | some items => items.any test
  | none => test value

/-- The test holds for a value that is there and not `null`. -/
def anyPresent (test : Value → Bool) : Option Value → Bool
  | none => false
  | some value => !value.isNull && anyValue test value

/-- The value is there and not `null`. -/
def isPresent : Option Value → Bool
  | none => false
  | some value => !value.isNull

/-- The field's value lies between two values. -/
def inRange (low high value : Value) : Bool := value.isGe low && value.isLe high

/-- The field's value is a string that matches the pattern. -/
def matchesPattern (pattern : String) (value : Value) : Bool :=
  match value.string? with
  | some text => Like.isMatch text.toList pattern.toList
  | none => false

/-- Tests a condition on the field's value and the operands' values. -/
def test (c : Condition) (value : Option Value) (operands : List Value) : Except Error Bool :=
  let some? test := Except.ok (anyPresent test value)
  let none? test := Except.ok (!anyPresent test value)
  let wrongCount := Except.error (Error.malformedPredicate c.field
    (.valueCount c.operator ((expectedOperands? c.operator).getD 0) operands.length))
  match c.scope with
  | .child _ => .error (.unsupportedJoinPredicate (.childScope c))
  | _ =>
    match c.operator, operands with
    | .eq, [x] => some? fun v => v.equal x
    | .ne, [x] => none? fun v => v.equal x
    | .gt, [x] => some? fun v => v.isGt x
    | .ge, [x] => some? fun v => v.isGe x
    | .lt, [x] => some? fun v => v.isLt x
    | .le, [x] => some? fun v => v.isLe x
    | .between, [low, high] => some? (inRange low high)
    | .notBetween, [low, high] => none? (inRange low high)
    | .like, [x] => match x.string? with
      | some pattern => some? (matchesPattern pattern)
      | none => .error (.malformedPredicate c.field (.patternNotString c.operator))
    | .notLike, [x] => match x.string? with
      | some pattern => none? (matchesPattern pattern)
      | none => .error (.malformedPredicate c.field (.patternNotString c.operator))
    | .isIn, operands => some? fun v => operands.any fun x => v.equal x
    | .notIn, operands => none? fun v => operands.any fun x => v.equal x
    | .isNull, [] => .ok (!isPresent value)
    | .isNotNull, [] => .ok (isPresent value)
    | .geoIntersects, [_] => .error (.unsupportedJoinPredicate (.notEvaluable c))
    | _, _ => wrongCount

/-- How the values of fields are found. -/
abbrev LookUp := String → Except Error (Option Value)

/-- The values of operands; none when a field among them has no value. -/
def operandValues (lookUp : LookUp) : List Operand → Except Error (Option (List Value))
  | [] => .ok (some [])
  | .literal value :: operands => do
    return (← operandValues lookUp operands).map fun values => value :: values
  | .field name :: operands => do
    match ← lookUp name with
    | some value => return (← operandValues lookUp operands).map fun values => value :: values
    | none => return none

/-- Tests a condition. It does not hold when an operand is a field without a value. -/
def holds (lookUp : LookUp) (c : Condition) : Except Error Bool := do
  let value ← lookUp c.field
  match ← operandValues lookUp c.operands with
  | some operands => c.test value operands
  | none => return false

end Condition

namespace Predicate

mutual

/-- Tests a predicate. -/
def holds (lookUp : Condition.LookUp) : Predicate → Except Error Bool
  | .leaf condition => condition.holds lookUp
  | .group _ children => groupHolds lookUp false none children

/-- Tests the children of a group that are left. `hasAll` says that a child connected by `all` came
before, and `anyHolds` whether one of the alternatives before held, if there were any. The first
child connected by `all` that does not hold decides. -/
def groupHolds (lookUp : Condition.LookUp) (hasAll : Bool) (anyHolds : Option Bool) :
    List Predicate → Except Error Bool
  | [] => .ok (hasAll || anyHolds.getD true)
  | child :: children => do
    let childHolds ← holds lookUp child
    match child.connector with
    | .all => if childHolds then groupHolds lookUp true anyHolds children else return false
    | .any => groupHolds lookUp hasAll (some (anyHolds.getD false || childHolds)) children

end

end Predicate

namespace Join

/-- The side and the name of a qualified field. -/
def resolve (join : Join) (field : String) : Except Error (Side × String) :=
  match join.resolve? field with
  | some resolved => .ok resolved
  | none => .error (.unsupportedJoinPredicate
    (.unqualified field join.first.qualifier join.second.qualifier))

/-- The values of the fields of a pair of documents. -/
def pairLookUp (join : Join) (first second : Document) : Condition.LookUp := fun field => do
  match ← join.resolve field with
  | (.first, name) => return first.get? name
  | (.second, name) => return second.get? name

/-- Tests a predicate on a pair of documents. -/
def pairHolds (join : Join) (predicate : Predicate) (first second : Document) :
    Except Error Bool :=
  predicate.holds (join.pairLookUp first second)

end Join

end SearchJoin
