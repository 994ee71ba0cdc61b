import SearchJoin.Json.Normal

/-!
# Records and choices in JSON

How structured data stands in JSON. A record is an object, in which fields with unknown names do
not count and a known name stands once at most, or an array of the fields in their order. A choice
without data is its name as a string, or an object that has the name over `null`.
-/

namespace SearchJoin.Json

/-- The field under `name`, if there is one. A name that is repeated is an error. -/
def fieldOnce? (name : String) : List (String × Json) → Option (Option Json)
  | [] => some none
  | (other, value) :: fields =>
    if other = name then if (fields.lookup name).isSome then none else some (some value)
    else fieldOnce? name fields

/-- The fields of a record, by name or by position. -/
def record? (names : List String) : Json → Option (List (Option Json))
  | .obj fields => names.mapM fun name => fieldOnce? name fields
  | .arr items =>
    if items.length ≤ names.length then
      some (items.map some ++ List.replicate (names.length - items.length) none)
    else none
  | _ => none

/-- A field that has to be there. -/
def required? {α : Type} (decode : Json → Option α) (field : Option Json) : Option α :=
  field.bind decode

/-- A field that may be missing or `null`. -/
def optional? {α : Type} (decode : Json → Option α) : Option Json → Option (Option α)
  | none => some none
  | some .null => some none
  | some value => (decode value).map some

/-- A field that may be missing, and has a value then. -/
def defaulted? {α : Type} (absent : α) (decode : Json → Option α) : Option Json → Option α
  | none => some absent
  | some value => decode value

/-- A string. -/
def string? : Json → Option String
  | .str s => some s
  | _ => none

/-- A truth value. -/
def bool? : Json → Option Bool
  | .bool b => some b
  | _ => none

/-- An unsigned word, written as an integer. -/
def uint64? : Json → Option UInt64
  | .num n => n.toUInt64?
  | _ => none

/-- An array of things of one kind. -/
def list? {α : Type} (decode : Json → Option α) : Json → Option (List α)
  | .arr items => items.mapM decode
  | _ => none

/-- An object, as a map; of a repeated name the last field counts. -/
def map? {α : Type} (decode : Json → Option α) : Json → Option (SortedMap α)
  | .obj fields =>
    (fields.mapM fun field => (decode field.2).map fun x => (field.1, x)).map SortedMap.ofList
  | _ => none

/-- The name of a choice without data. -/
def choice? : Json → Option String
  | .str name => some name
  | .obj [(name, .null)] => some name
  | _ => none

/-- The tag of a tagged record and its fields: an object holds the tag under a name of its own, an
array holds it in front. -/
def tagged? (tag : String) : Json → Option (String × Json)
  | .obj fields => do
    let some (.str value) ← fieldOnce? tag fields | none
    some (value, .obj fields)
  | .arr (.str value :: rest) => some (value, .arr rest)
  | _ => none

end SearchJoin.Json
