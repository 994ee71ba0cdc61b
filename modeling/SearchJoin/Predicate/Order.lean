import SearchJoin.Json.Normal

/-!
# Comparing values

How the values of fields and operands compare. Numbers compare by value, strings by their
characters, and `false` comes before `true`; values of different kinds do not compare.
-/

namespace SearchJoin.Value

/-- The order of two values, if they compare. -/
def order? (a b : Value) : Option Ordering :=
  match a.json, b.json with
  | .num x, .num y => some (x.order y)
  | .str x, .str y => some (compare x y)
  | .bool x, .bool y => some (compare x y)
  | _, _ => none

/-- The values are equal: numbers when neither is less, all else when they are the same. -/
def equal (a b : Value) : Bool :=
  match a.json, b.json with
  | .num x, .num y => x.order y == .eq
  | _, _ => a.same b

/-- The first value is greater. -/
def isGt (a b : Value) : Bool := a.order? b == some .gt

/-- The first value is greater, or neither is. -/
def isGe (a b : Value) : Bool := a.order? b == some .gt || a.order? b == some .eq

/-- The first value is less. -/
def isLt (a b : Value) : Bool := a.order? b == some .lt

/-- The first value is less, or neither is. -/
def isLe (a b : Value) : Bool := a.order? b == some .lt || a.order? b == some .eq

end SearchJoin.Value
