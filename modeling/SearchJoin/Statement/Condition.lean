import SearchJoin.Json.Normal
import SearchJoin.Json.Printer
import SearchJoin.Statement.Operator

/-!
# Conditions

A condition compares a field with operands. It is the leaf of a predicate.
-/

namespace SearchJoin

/-- Where the field of a condition is found. -/
inductive Scope where
  /-- In the document. -/
  | document
  /-- In the objects that the document nests under a path. -/
  | nested (path : String)
  /-- In the child documents of a type. -/
  | child (childType : String)
  deriving DecidableEq

/-- An operand of a condition. -/
inductive Operand where
  /-- A literal value. -/
  | literal (value : Value)
  /-- The value of another field. -/
  | field (name : String)

/-- The operand in SQL. -/
def Operand.sql : Operand → String
  | .literal value => value.json.compress
  | .field name => name

/-- A comparison of a field with operands. -/
structure Condition where
  /-- How the condition is combined with its siblings. -/
  connector : Connector
  /-- The field, which the alias of its table may qualify. -/
  field : String
  /-- The comparison. -/
  operator : Operator
  /-- The operands; how many there have to be depends on the operator. -/
  operands : List Operand
  /-- Where the field is found. -/
  scope : Scope

namespace Condition

/-- A condition on the document that has to hold. -/
def of (field : String) (operator : Operator) (operands : List Operand) : Condition :=
  ⟨.all, field, operator, operands, .document⟩

/-- The comparison of a field with a value. -/
def compare (field : String) (operator : Operator) (value : Value) : Condition :=
  of field operator [.literal value]

/-- The field equals a value. -/
def eq (field : String) (value : Value) : Condition := compare field .eq value

/-- The field lies between two values. -/
def between (field : String) (low high : Value) : Condition :=
  of field .between [.literal low, .literal high]

/-- The field is one of some values. -/
def isIn (field : String) (values : List Value) : Condition :=
  of field .isIn (values.map .literal)

/-- The field matches a pattern. -/
def like (field pattern : String) : Condition := of field .like [.literal (.str pattern)]

/-- The field is missing. -/
def isNull (field : String) : Condition := of field .isNull []

/-- The comparison of two fields. -/
def fields (left : String) (operator : Operator) (right : String) : Condition :=
  of left operator [.field right]

/-- The condition as an alternative. -/
def orLeaf (c : Condition) : Condition := { c with connector := .any }

/-- The condition on the objects nested under a path. -/
def nested (c : Condition) (path : String) : Condition := { c with scope := .nested path }

/-- The condition on the child documents of a type. -/
def child (c : Condition) (childType : String) : Condition := { c with scope := .child childType }

/-- The field that the condition compares with, when its single operand is a field. -/
def fieldOperand? (c : Condition) : Option String :=
  match c.operands with
  | [.field name] => some name
  | _ => none

/-- The operands in SQL, as they follow the operator. -/
def operandsSql (operator : Operator) (operands : List Operand) : String :=
  match operator, operands with
  | .between, [low, high] => " " ++ low.sql ++ " AND " ++ high.sql
  | .notBetween, [low, high] => " " ++ low.sql ++ " AND " ++ high.sql
  | .isIn, operands => " (" ++ ", ".intercalate (operands.map Operand.sql) ++ ")"
  | .notIn, operands => " (" ++ ", ".intercalate (operands.map Operand.sql) ++ ")"
  | _, operands => String.join (operands.map fun operand => " " ++ operand.sql)

/-- The condition in SQL. -/
def sql (c : Condition) : String :=
  c.field ++ " " ++ c.operator.sql ++ operandsSql c.operator c.operands

end Condition

end SearchJoin
