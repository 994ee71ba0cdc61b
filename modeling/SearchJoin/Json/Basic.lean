import SearchJoin.Number.Basic

/-!
# JSON trees

A tree holds what a JSON text says: the fields of an object stand in the order of the text and a
name may be repeated. Values that the library keeps are trees in normal form, see
`SearchJoin.Json.Normal`.
-/

namespace SearchJoin

/-- A JSON tree. -/
inductive Json where
  /-- `null`. -/
  | null
  /-- `true` or `false`. -/
  | bool (value : Bool)
  /-- A number. -/
  | num (value : Number)
  /-- A string. -/
  | str (value : String)
  /-- An array. -/
  | arr (items : List Json)
  /-- An object. -/
  | obj (fields : List (String × Json))

namespace Json

instance : Inhabited Json := ⟨.null⟩

/-- An unsigned word. -/
def ofUInt64 (n : UInt64) : Json := .num (.ofUInt64 n)

/-- The length of a list. -/
def ofLength {α : Type} (xs : List α) : Json := ofUInt64 (.ofNat xs.length)

/-- An array of strings. -/
def ofStrings (texts : List String) : Json := .arr (texts.map .str)

/-- An optional value, `null` when there is none. -/
def ofOption {α : Type} (encode : α → Json) : Option α → Json
  | some x => encode x
  | none => .null

/-- The fields of an object that are present. -/
def ofPresent (fields : List (String × Option Json)) : Json :=
  .obj (fields.filterMap fun field => field.2.map fun value => (field.1, value))

mutual

/-- Equality of values: numbers are the same when they are of one kind and one value. -/
def same : Json → Json → Bool
  | .null, .null => true
  | .bool a, .bool b => a == b
  | .num a, .num b => a.same b
  | .str a, .str b => a == b
  | .arr xs, .arr ys => sameItems xs ys
  | .obj xs, .obj ys => sameFields xs ys
  | _, _ => false

/-- Equality of arrays, item by item. -/
def sameItems : List Json → List Json → Bool
  | [], [] => true
  | x :: xs, y :: ys => same x y && sameItems xs ys
  | _, _ => false

/-- Equality of objects, field by field. -/
def sameFields : List (String × Json) → List (String × Json) → Bool
  | [], [] => true
  | (a, x) :: xs, (b, y) :: ys => a == b && same x y && sameFields xs ys
  | _, _ => false

end

mutual

/-- How many arrays and objects stand inside each other, at most. -/
def depth : Json → Nat
  | .arr items => depthItems items + 1
  | .obj fields => depthFields fields + 1
  | _ => 0

/-- The depth of the deepest item. -/
def depthItems : List Json → Nat
  | [] => 0
  | item :: items => max (depth item) (depthItems items)

/-- The depth of the deepest field. -/
def depthFields : List (String × Json) → Nat
  | [] => 0
  | (_, value) :: fields => max (depth value) (depthFields fields)

end

end Json

end SearchJoin
