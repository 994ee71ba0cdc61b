import SearchJoin.Backend.Document
import SearchJoin.Statement.Join

/-!
# Join keys

The key of a row has a part for each key field. Numbers are brought into one form, so that `1` and
`1.0` are the same part; `null`, arrays and objects are no parts. A key table groups rows by key.
-/

namespace SearchJoin

/-- A part of a join key. -/
inductive KeyPart where
  /-- A truth value. -/
  | bool (value : Bool)
  /-- An integer that a machine word holds. -/
  | int (value : WordInt)
  /-- Any other number. -/
  | float (value : Binary64)
  /-- A string. -/
  | str (value : String)
  deriving DecidableEq

namespace KeyPart

/-- The part of a number. A binary64 number that is an integer and fits a signed word becomes that
integer. -/
def ofNumber : Number → KeyPart
  | .int i => .int i
  | .float x =>
    match (x.toInt?.bind WordInt.ofInt?).filter WordInt.isSigned with
    | some i => .int i
    | none => .float x

/-- The part of a value. -/
def ofValue? (value : Value) : Option KeyPart :=
  match value.json with
  | .bool b => some (.bool b)
  | .str s => some (.str s)
  | .num n => some (ofNumber n)
  | _ => none

/-- The value of a part. -/
def toValue : KeyPart → Value
  | .bool b => .bool b
  | .int i => .num (.int i)
  | .float x => .num (.float x)
  | .str s => .str s

/-- The kind of a part, as errors name it. -/
def kind : KeyPart → String
  | .bool _ => "boolean"
  | .int _ | .float _ => "numeric"
  | .str _ => "string"

/-- A field of the declared type can hold the part. -/
def fits : KeyPart → FieldType → Bool
  | .bool _, type => type == .boolean
  | .int _, type | .float _, type => type == .long || type == .double || type == .date
  | .str _, type => type == .keyword || type == .text || type == .date

end KeyPart

/-- A join key: a part for each key field, in the order of the `ON` clause. -/
abbrev Key := List KeyPart

/-- The key of a document; none when a field is missing or holds no part. -/
def Key.ofDocument? (fields : List String) (doc : Document) : Option Key :=
  fields.mapM fun field => (doc.get? field).bind KeyPart.ofValue?

/-- The elements without repetitions, each where it stands first. -/
def distinct {α : Type} [DecidableEq α] : List α → List α
  | [] => []
  | x :: xs => x :: (distinct xs).filter (· ≠ x)

/-- Rows by key: each key with the numbers of its rows. Keys stand in the order in which they were
first seen, rows in ascending order. -/
structure KeyTable where
  /-- The keys and their rows. -/
  entries : List (Key × List Nat)

namespace KeyTable

/-- The entries with one more row under a key. -/
def addEntry (key : Key) (row : Nat) : List (Key × List Nat) → List (Key × List Nat)
  | [] => [(key, [row])]
  | (other, rows) :: entries =>
    if other = key then (other, rows ++ [row]) :: entries
    else (other, rows) :: addEntry key row entries

/-- The table of rows that are numbered from `row` on and have these keys; rows without a key are
left out. -/
def addFrom (entries : List (Key × List Nat)) (row : Nat) :
    List (Option Key) → List (Key × List Nat)
  | [] => entries
  | none :: keys => addFrom entries (row + 1) keys
  | some key :: keys => addFrom (addEntry key row entries) (row + 1) keys

/-- The table of documents, by key fields. -/
def ofDocuments (fields : List String) (docs : List Document) : KeyTable :=
  ⟨addFrom [] 0 (docs.map (Key.ofDocument? fields))⟩

/-- How many documents have no key. -/
def skipped (fields : List String) (docs : List Document) : Nat :=
  (docs.filter fun doc => (Key.ofDocument? fields doc).isNone).length

/-- No row has a key. -/
def isEmpty (table : KeyTable) : Bool := table.entries.isEmpty

/-- The keys. -/
def keys (table : KeyTable) : List Key := table.entries.map Prod.fst

/-- The rows with a key. -/
def rows (table : KeyTable) (key : Key) : List Nat := (table.entries.lookup key).getD []

/-- The parts that the keys have at a position. -/
def distinctParts (table : KeyTable) (position : Nat) : List KeyPart :=
  distinct (table.keys.filterMap fun key => key[position]?)

end KeyTable

end SearchJoin
