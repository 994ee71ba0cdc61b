import SearchJoin.Statement.Join

/-!
# Errors

Every error of the library, with its code, its words, and whether the same statement may succeed
when it is run again. Errors are told apart by their cause; the words of a cause are written in one
place.
-/

namespace SearchJoin

/-- What is wrong with a condition, whose field is known. -/
inductive ConditionFault where
  /-- The field has no name. -/
  | emptyField
  /-- An operand is a field where a literal is needed. -/
  | unboundField (name : String)
  /-- An operand is no string, number or truth value. -/
  | notScalar (operator : Operator) (value : Value)
  /-- There is not exactly one operand. -/
  | notOneValue (operator : Operator) (given : Nat)
  /-- There is not exactly one operand that is a string. -/
  | notOneString (operator : Operator)
  /-- There are not exactly two operands. -/
  | notTwoValues (operator : Operator) (given : Nat)
  /-- There is no operand. -/
  | noValue (operator : Operator)
  /-- There are operands where none may be. -/
  | someValue (operator : Operator) (given : Nat)
  /-- A row cannot be tested: there are more or fewer operands than expected. -/
  | valueCount (operator : Operator) (expected given : Nat)
  /-- A row cannot be tested: the pattern is no string. -/
  | patternNotString (operator : Operator)
  /-- A fault in the words of a caller. -/
  | stated (words : String)

/-- The fault in words. -/
def ConditionFault.message : ConditionFault → String
  | .emptyField => "empty field name"
  | .unboundField name => s!"unbound field reference '{name}'"
  | .notScalar operator value =>
    s!"{operator.sql} expects scalar values, got {value.json.compress}"
  | .notOneValue operator given => s!"{operator.sql} expects exactly 1 value, got {given}"
  | .notOneString operator => s!"{operator.sql} expects exactly 1 string value"
  | .notTwoValues operator given => s!"{operator.sql} expects exactly 2 values, got {given}"
  | .noValue operator => s!"{operator.sql} expects at least 1 value"
  | .someValue operator given => s!"{operator.sql} takes no value, got {given}"
  | .valueCount operator expected given =>
    s!"{operator.sql} expects {expected} value(s), got {given}"
  | .patternNotString operator => s!"{operator.sql} expects a string pattern"
  | .stated words => words

/-- Why a predicate of a join cannot be executed. -/
inductive JoinFault where
  /-- A field carries the qualifier of neither table. -/
  | unqualified (field first second : String)
  /-- A condition would have to swap its operands, and its operator does not allow that. -/
  | notSwappable (condition : Condition)
  /-- A condition to bind compares two fields of the joined table. -/
  | withinSecond (condition : Condition)
  /-- A condition with several operands takes some of each table. -/
  | mixedOperands (condition : Condition)
  /-- A condition of the `ON` clause does not compare two fields. -/
  | notTwoFields (condition : Condition)
  /-- A condition of the `ON` clause compares two fields of one table. -/
  | oneTable (condition : Condition)
  /-- A condition on child documents cannot be tested on a row. -/
  | childScope (condition : Condition)
  /-- A condition on shapes cannot be tested on a row. -/
  | notEvaluable (condition : Condition)
  /-- A hash join has no key. -/
  | noKey
  /-- A condition of a hash join is no equality. -/
  | notEquality (condition : Condition)
  /-- A fault in the words of a caller. -/
  | stated (words : String)

/-- The fault in words. -/
def JoinFault.message : JoinFault → String
  | .unqualified field first second =>
    s!"field '{field}' is not qualified with '{first}' or '{second}'"
  | .notSwappable condition => s!"'{condition.sql}' cannot be rewritten with its operands swapped"
  | .withinSecond condition => s!"'{condition.sql}' compares two fields of the joined table"
  | .mixedOperands condition =>
    s!"'{condition.sql}' mixes both tables in a multi-value predicate"
  | .notTwoFields condition => s!"'{condition.sql}' does not compare two fields"
  | .oneTable condition => s!"'{condition.sql}' references only one table"
  | .childScope condition => s!"'{condition.sql}' targets child documents"
  | .notEvaluable condition => s!"'{condition.sql}' cannot be evaluated on joined rows"
  | .noKey => "hash join needs at least one equality predicate"
  | .notEquality condition => s!"hash join only supports '=', got '{condition.sql}'"
  | .stated words => words

/-- A key field of one side, as an error names it. -/
structure KeySide where
  /-- The qualified field. -/
  field : String
  /-- The declared type of the field, or the kind of a value in it. -/
  kind : String
  deriving DecidableEq

/-- An error. -/
inductive Error where
  /-- The operands of a condition do not fit its operator. -/
  | malformedPredicate (field : String) (fault : ConditionFault)
  /-- The two fields of a key cannot hold equal values. -/
  | joinKeyMismatch (first second : KeySide)
  /-- A batch of sub-queries failed; batches count from zero. -/
  | probeBatchFailure (batch : Nat) (reason : String)
  /-- The query of one table failed. -/
  | joinSideFailure (qualifier reason : String)
  /-- The strategy cannot execute a predicate. -/
  | unsupportedJoinPredicate (fault : JoinFault)
  /-- The text of a hint is no hint. -/
  | invalidHint (fault : HintFault)
  /-- A call of the backend failed. -/
  | transport (reason : String)
  /-- A setting cannot be used. -/
  | config (reason : String)
  /-- A value cannot be written. -/
  | serialization (reason : String)
  /-- A state that cannot arise has arisen. -/
  | internal (reason : String)

namespace Error

/-- The code of an error. -/
def code : Error → String
  | .malformedPredicate _ _ => "SQLS-001"
  | .joinKeyMismatch _ _ => "SQLS-002"
  | .probeBatchFailure _ _ => "SQLS-003"
  | .joinSideFailure _ _ => "SQLS-004"
  | .unsupportedJoinPredicate _ => "SQLS-005"
  | .invalidHint _ => "SQLS-006"
  | .transport _ => "SQLS-007"
  | .config _ => "SQLS-008"
  | .serialization _ => "SQLS-009"
  | .internal _ => "SQLS-010"

/-- The same statement may succeed when it is run again: the backend failed, not the statement. -/
def isRetryable : Error → Bool
  | .transport _ | .probeBatchFailure _ _ | .joinSideFailure _ _ => true
  | _ => false

/-- The words of an error behind its code. -/
def description : Error → String
  | .malformedPredicate field fault => s!"Malformed predicate on '{field}': {fault.message}"
  | .joinKeyMismatch first second =>
    s!"Join key mismatch: '{first.field}' ({first.kind}) cannot be compared with " ++
      s!"'{second.field}' ({second.kind})"
  | .probeBatchFailure batch reason => s!"Probe batch {batch} failed: {reason}"
  | .joinSideFailure qualifier reason => s!"Query on join side '{qualifier}' failed: {reason}"
  | .unsupportedJoinPredicate fault => s!"Unsupported join predicate: {fault.message}"
  | .invalidHint fault => s!"Invalid hint: {fault.message}"
  | .transport reason => s!"Transport error: {reason}"
  | .config reason => s!"Configuration error: {reason}"
  | .serialization reason => s!"Serialization error: {reason}"
  | .internal reason => s!"Internal error: {reason}"

/-- The error in words. -/
def message (error : Error) : String := s!"[{error.code}] {error.description}"

end Error

end SearchJoin
