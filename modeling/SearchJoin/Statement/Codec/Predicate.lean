import SearchJoin.Json.Record
import SearchJoin.Statement.Predicate

/-!
# Predicates in JSON

A connector, an operator or a scope is named in JSON by a word of its own. An operand holds its
kind and its value, a predicate is an object with the one field `leaf` or `group`.
-/

namespace SearchJoin

namespace Connector

/-- The name of a connector. -/
def name : Connector → String
  | .all => "AND"
  | .any => "OR"

/-- The connector of a name. -/
def ofName? : String → Option Connector
  | "AND" => some .all
  | "OR" => some .any
  | _ => none

/-- A connector in JSON. -/
def toJson (connector : Connector) : Json := .str connector.name

/-- Reads a connector. -/
def ofJson? (json : Json) : Option Connector := json.choice?.bind ofName?

end Connector

namespace Operator

/-- The name of an operator. -/
def name : Operator → String
  | .eq => "EQ"
  | .ne => "NEQ"
  | .gt => "GT"
  | .lt => "LT"
  | .ge => "GTE"
  | .le => "LTE"
  | .like => "LIKE"
  | .notLike => "NOT_LIKE"
  | .isIn => "IN"
  | .notIn => "NOT_IN"
  | .between => "BETWEEN"
  | .notBetween => "NOT_BETWEEN"
  | .isNull => "IS_NULL"
  | .isNotNull => "IS_NOT_NULL"
  | .geoIntersects => "GEO_INTERSECTS"

/-- All operators. -/
def all : List Operator :=
  [.eq, .ne, .gt, .lt, .ge, .le, .like, .notLike, .isIn, .notIn, .between, .notBetween, .isNull,
    .isNotNull, .geoIntersects]

/-- The operator of a name. -/
def ofName? (name : String) : Option Operator := all.find? fun operator => operator.name == name

/-- An operator in JSON. -/
def toJson (operator : Operator) : Json := .str operator.name

/-- Reads an operator. -/
def ofJson? (json : Json) : Option Operator := json.choice?.bind ofName?

end Operator

namespace Scope

/-- A scope in JSON. -/
def toJson : Scope → Json
  | .document => .obj [("kind", .str "document")]
  | .nested path => .obj [("kind", .str "nested"), ("path", .str path)]
  | .child childType => .obj [("child_type", .str childType), ("kind", .str "child")]

/-- Reads a scope. -/
def ofJson? (json : Json) : Option Scope := do
  let (kind, fields) ← json.tagged? "kind"
  match kind with
  | "document" =>
    match fields with
    | .arr (_ :: _) => none
    | _ => some .document
  | "nested" =>
    let [path] ← fields.record? ["path"] | none
    return .nested (← Json.required? Json.string? path)
  | "child" =>
    let [childType] ← fields.record? ["child_type"] | none
    return .child (← Json.required? Json.string? childType)
  | _ => none

end Scope

namespace Operand

/-- An operand in JSON. -/
def toJson : Operand → Json
  | .literal value => .obj [("kind", .str "literal"), ("value", value.json)]
  | .field name => .obj [("kind", .str "field"), ("value", .str name)]

/-- Reads an operand. -/
def ofJson? (json : Json) : Option Operand := do
  let [some kind, some value] ← json.record? ["kind", "value"] | none
  match ← kind.choice? with
  | "literal" => return .literal (.ofJson value)
  | "field" => return .field (← value.string?)
  | _ => none

end Operand

namespace Condition

/-- A condition in JSON. -/
def toJson (c : Condition) : Json :=
  .obj [("connector", c.connector.toJson), ("field", .str c.field),
    ("operands", .arr (c.operands.map Operand.toJson)), ("operator", c.operator.toJson),
    ("scope", c.scope.toJson)]

/-- Reads a condition; a scope that is missing is the document. -/
def ofJson? (json : Json) : Option Condition := do
  let [connector, field, operator, operands, scope] ←
    json.record? ["connector", "field", "operator", "operands", "scope"] | none
  return {
    connector := ← Json.required? Connector.ofJson? connector
    field := ← Json.required? Json.string? field
    operator := ← Json.required? Operator.ofJson? operator
    operands := ← Json.required? (Json.list? Operand.ofJson?) operands
    scope := ← Json.defaulted? .document Scope.ofJson? scope }

end Condition

namespace Predicate

mutual

/-- A predicate in JSON. -/
def toJson : Predicate → Json
  | .leaf condition => .obj [("leaf", condition.toJson)]
  | .group connector children =>
    .obj [("group", .obj [("children", .arr (listToJson children)),
      ("connector", connector.toJson)])]

/-- Several predicates in JSON. -/
def listToJson : List Predicate → List Json
  | [] => []
  | child :: children => toJson child :: listToJson children

end

/-- The connector of a group, which stands once in its fields. -/
def connectorField? (fields : List (String × Json)) : Option Connector :=
  (Json.fieldOnce? "connector" fields).bind (Json.required? Connector.ofJson?)

mutual

/-- Reads a predicate: an object with the one field `leaf` or `group`. -/
def ofJson? : Json → Option Predicate
  | .obj [(kind, content)] =>
    if kind = "leaf" then (Condition.ofJson? content).map .leaf
    else if kind = "group" then groupOfJson? content
    else none
  | _ => none

/-- Reads a group, by name or by position. -/
def groupOfJson? : Json → Option Predicate
  | .obj fields =>
    (connectorField? fields).bind fun connector =>
      (childrenField? fields).map fun children => .group connector children
  | .arr [connector, children] =>
    (Connector.ofJson? connector).bind fun connector =>
      (childrenOfJson? children).map fun children => .group connector children
  | _ => none

/-- Reads the children of a group, which stand once in its fields. -/
def childrenField? : List (String × Json) → Option (List Predicate)
  | [] => none
  | (name, value) :: fields =>
    if name = "children" then
      if (fields.lookup "children").isSome then none else childrenOfJson? value
    else childrenField? fields

/-- Reads the children of a group. -/
def childrenOfJson? : Json → Option (List Predicate)
  | .arr items => listOfJson? items
  | _ => none

/-- Reads several predicates. -/
def listOfJson? : List Json → Option (List Predicate)
  | [] => some []
  | item :: items =>
    (ofJson? item).bind fun child => (listOfJson? items).map fun children => child :: children

end

end Predicate

end SearchJoin
