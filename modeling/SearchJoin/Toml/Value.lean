import SearchJoin.Text.Digits

/-!
# Values of TOML

What a TOML document says, as a tree. Numbers are integers or floats, and a float is kept as it is
written.
-/

namespace SearchJoin.Toml

/-- A value. -/
inductive Value where
  /-- A string. -/
  | string (value : String)
  /-- An integer. -/
  | integer (value : Int)
  /-- A float. -/
  | float (text : String)
  /-- A truth value. -/
  | boolean (value : Bool)
  /-- A date, a time, or both. -/
  | datetime (text : String)
  /-- An array. -/
  | array (items : List Value)
  /-- A table; its keys are distinct. -/
  | table (entries : List (String × Value))

/-- The entries of a table. -/
abbrev Table := List (String × Value)

mutual

/-- What holds when `upper` is laid over `lower`: tables are merged, all else is replaced. -/
def Value.overlay (upper : Value) (lower : Value) : Value :=
  match upper, lower with
  | .table above, .table below => .table (overlayEntries above below)
  | upper, _ => upper

/-- What holds when a table is laid over another one. -/
def overlayEntries : Table → Table → Table
  | [], below => below
  | (key, value) :: above, below =>
    let rest := overlayEntries above (below.filter fun entry => entry.1 ≠ key)
    match below.lookup key with
    | some held => (key, value.overlay held) :: rest
    | none => (key, value) :: rest

end

end SearchJoin.Toml
