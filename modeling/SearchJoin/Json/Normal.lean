import SearchJoin.Json.Basic
import SearchJoin.SortedMap

/-!
# JSON values

A value is a tree in normal form: in every object the names ascend strictly, so no name is
repeated. `normalize` brings a tree into this form; of a repeated name the last field counts.

Main statement: `normal_normalize`, the result of `normalize` is in normal form.
-/

namespace SearchJoin

namespace Json

mutual

/-- In every object of the tree the names ascend strictly. -/
def Normal : Json → Prop
  | .arr items => NormalItems items
  | .obj fields => fields.Pairwise (fun a b => a.1 < b.1) ∧ NormalFields fields
  | _ => True

/-- Every item is in normal form. -/
def NormalItems : List Json → Prop
  | [] => True
  | item :: items => Normal item ∧ NormalItems items

/-- The value of every field is in normal form. -/
def NormalFields : List (String × Json) → Prop
  | [] => True
  | (_, value) :: fields => Normal value ∧ NormalFields fields

end

/-- Puts a field into an ascending list of fields, unless its name is there already. -/
def addField (name : String) (value : Json) (fields : List (String × Json)) :
    List (String × Json) :=
  if (fields.lookup name).isSome then fields else insertEntry name value fields

mutual

/-- The tree in normal form. -/
def normalize : Json → Json
  | .arr items => .arr (normalizeItems items)
  | .obj fields => .obj (normalizeFields fields)
  | .null => .null
  | .bool b => .bool b
  | .num n => .num n
  | .str s => .str s

/-- Every item in normal form. -/
def normalizeItems : List Json → List Json
  | [] => []
  | item :: items => normalize item :: normalizeItems items

/-- The fields by name, each in normal form; a later field wins. -/
def normalizeFields : List (String × Json) → List (String × Json)
  | [] => []
  | (name, value) :: fields => addField name (normalize value) (normalizeFields fields)

end

theorem normalFields_iff {fields : List (String × Json)} :
    NormalFields fields ↔ ∀ field ∈ fields, Normal field.2 := by
  induction fields with
  | nil => simp [NormalFields]
  | cons head rest ih => obtain ⟨name, value⟩ := head; simp [NormalFields, ih]

theorem normalItems_iff {items : List Json} : NormalItems items ↔ ∀ item ∈ items, Normal item := by
  induction items with
  | nil => simp [NormalItems]
  | cons head rest ih => simp [NormalItems, ih]

theorem normalFields_insertEntry {name : String} {value : Json} {fields : List (String × Json)}
    (hv : Normal value) (hf : NormalFields fields) :
    NormalFields (insertEntry name value fields) := by
  induction fields with
  | nil => exact ⟨hv, trivial⟩
  | cons head rest ih =>
    obtain ⟨other, held⟩ := head
    unfold insertEntry
    split
    · exact ⟨hv, hf⟩
    · split
      · exact ⟨hv, hf.2⟩
      · exact ⟨hf.1, ih hf.2⟩

mutual

theorem normal_normalize : (tree : Json) → Normal (normalize tree)
  | .null | .bool _ | .num _ | .str _ => by simp [normalize, Normal]
  | .arr items => by
    simp only [normalize, Normal]
    exact normalItems_normalizeItems items
  | .obj fields => by
    simp only [normalize, Normal]
    exact normalFields_normalizeFields fields

theorem normalItems_normalizeItems : (items : List Json) → NormalItems (normalizeItems items)
  | [] => by simp [normalizeItems, NormalItems]
  | item :: items => by
    simp only [normalizeItems, NormalItems]
    exact ⟨normal_normalize item, normalItems_normalizeItems items⟩

theorem normalFields_normalizeFields : (fields : List (String × Json)) →
    (normalizeFields fields).Pairwise (fun a b => a.1 < b.1) ∧
      NormalFields (normalizeFields fields)
  | [] => by simp [normalizeFields, NormalFields]
  | (name, value) :: fields => by
    obtain ⟨sorted, normal⟩ := normalFields_normalizeFields fields
    simp only [normalizeFields, addField]
    split
    · exact ⟨sorted, normal⟩
    · exact ⟨pairwise_insertEntry name _ sorted,
        normalFields_insertEntry (normal_normalize value) normal⟩

end

end Json

/-- A JSON value: a tree in which the names of every object ascend strictly. -/
structure Value where
  /-- The tree. -/
  json : Json
  /-- The tree is in normal form. -/
  normal : json.Normal

namespace Value

/-- The value of a tree; of a repeated name the last field counts. -/
def ofJson (tree : Json) : Value := ⟨tree.normalize, tree.normal_normalize⟩

/-- The value `null`. -/
def null : Value := ⟨.null, trivial⟩

/-- A truth value. -/
def bool (b : Bool) : Value := ⟨.bool b, trivial⟩

/-- A number. -/
def num (n : Number) : Value := ⟨.num n, trivial⟩

/-- A string. -/
def str (s : String) : Value := ⟨.str s, trivial⟩

instance : Inhabited Value := ⟨null⟩

@[ext] theorem ext {a b : Value} (h : a.json = b.json) : a = b := by
  cases a; cases b; cases h; rfl

/-- Equality of values. -/
def same (a b : Value) : Bool := a.json.same b.json

/-- The value is `null`. -/
def isNull (v : Value) : Bool := match v.json with
  | .null => true
  | _ => false

/-- The value is a truth value, a number or a string. -/
def isScalar (v : Value) : Bool := match v.json with
  | .bool _ | .num _ | .str _ => true
  | _ => false

/-- The text of a string. -/
def string? (v : Value) : Option String := match v.json with
  | .str s => some s
  | _ => none

theorem normal_of_mem_items {items : List Json} (h : (Json.arr items).Normal) {item : Json}
    (member : item ∈ items) : item.Normal := by
  simp only [Json.Normal] at h
  exact Json.normalItems_iff.1 h item member

theorem normal_of_lookup {fields : List (String × Json)} (h : (Json.obj fields).Normal)
    {name : String} {value : Json} (found : fields.lookup name = some value) : value.Normal := by
  simp only [Json.Normal] at h
  induction fields with
  | nil => simp at found
  | cons head rest ih =>
    obtain ⟨other, held⟩ := head
    rw [List.lookup_cons] at found
    split at found
    · exact Option.some.inj found ▸ h.2.1
    · exact ih ⟨(List.pairwise_cons.1 h.1).2, h.2.2⟩ found

/-- The items of an array. -/
def items? : Value → Option (List Value)
  | ⟨.arr items, normal⟩ =>
    some (items.attach.map fun item => ⟨item.1, normal_of_mem_items normal item.2⟩)
  | _ => none

/-- The value of a field of an object. -/
def field? (name : String) : Value → Option Value
  | ⟨.obj fields, normal⟩ =>
    match found : fields.lookup name with
    | some value => some ⟨value, normal_of_lookup normal found⟩
    | none => none
  | _ => none

end Value

end SearchJoin
