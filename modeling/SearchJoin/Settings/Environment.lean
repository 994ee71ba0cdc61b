import SearchJoin.Settings.File
import SearchJoin.Text.Blank

/-!
# Settings from environment variables

A variable whose name starts with `SQLSEARCH_`, in either case, is a setting. In the rest of the
name `__` and points part the group and the setting. The value is a number, a truth value, a quoted
string, a character, an array or a dictionary if it can be read as one, and else the text as it
stands.

Settings are loaded from a file and from the environment, which counts more.
-/

namespace SearchJoin

namespace Environment

/-! ## Values -/

/-- A blank of ASCII. -/
def isBlank (c : Char) : Bool := c = ' ' || c = '\t' || c = '\n' || c = '\x0c' || c = '\r'

/-- The text without the blanks in front. -/
def skipBlanks (cs : List Char) : List Char := cs.dropWhile isBlank

/-- Characters that end a plain value. -/
def isSeparator (c : Char) : Bool :=
  c = ',' || c = '[' || c = ']' || c = '\x7b' || c = '\x7d'

/-- Characters of a key without quotes. -/
def isKeyChar (c : Char) : Bool := c.isAlphanum || c = '_' || c = '-'

/-- The text without a sign in front. -/
def unsigned : List Char → List Char
  | '+' :: cs => cs
  | '-' :: cs => cs
  | cs => cs

/-- The text is a float with a point: digits on at least one side of it, and at will an exponent. -/
def isFloat (cs : List Char) : Bool :=
  let isExponent (c : Char) : Bool := c = 'e' || c = 'E'
  let mantissa := (unsigned cs).takeWhile fun c => !isExponent c
  let exponent := (unsigned cs).dropWhile fun c => !isExponent c
  let whole := mantissa.takeWhile (· ≠ '.')
  let fraction := mantissa.dropWhile (· ≠ '.')
  let digits := whole ++ fraction.drop 1
  fraction ≠ [] && digits ≠ [] && digits.all Char.isDigit &&
    (exponent = [] || (Text.natural? (unsigned (exponent.drop 1))).isSome)

/-- The integer that a text denotes, if it fits a word, signed or unsigned. -/
def integer? (cs : List Char) : Option Int := do
  let n ← Text.natural? (unsigned cs)
  let i : Int := if cs.head? = some '-' then -n else n
  if -0x8000000000000000 ≤ i ∧ i < 0x10000000000000000 then some i else none

/-- A plain value: a number or a text. -/
def plain (cs : List Char) : Toml.Value :=
  if isFloat cs then .float (.ofList cs)
  else match integer? cs with
    | some i => .integer i
    | none => .string (.ofList cs)

/-- Reads a thing with blanks around it. -/
def spaced {α : Type} (item : Text.Reader α) (cs : List Char) : Option (α × List Char) :=
  (item (skipBlanks cs)).map fun read => (read.1, skipBlanks read.2)

/-- Reads what stands between commas up to a closing bracket; the bracket may follow a comma. -/
def listed? {α : Type} (close : Char) (item : Text.Reader α) (cs : List Char) :
    Option (List α × List Char) :=
  match Text.skip? close cs with
  | some rest => some ([], rest)
  | none => do
    let (x, rest) ← item cs
    match Text.skip? ',' rest with
    | none => return ([x], ← Text.skip? close rest)
    | some rest =>
      if _shorter : rest.length < cs.length then
        let (xs, rest) ← listed? close item rest
        return (x :: xs, rest)
      else none
termination_by cs.length

/-- Reads a key of a dictionary. -/
def key? (cs : List Char) : Option (String × List Char) :=
  match cs with
  | '"' :: rest => (Toml.Quoted.basic? rest).map fun read => (.ofList read.1, read.2)
  | _ => match cs.takeWhile isKeyChar with
    | [] => none
    | key => some (.ofList key, cs.dropWhile isKeyChar)

/-- Reads an entry of a dictionary. -/
def pair? (value : Text.Reader Toml.Value) (cs : List Char) :
    Option ((String × Toml.Value) × List Char) := do
  let (key, rest) ← key? (skipBlanks cs)
  let (x, rest) ← value (← Text.skip? '=' (skipBlanks rest))
  return ((key, x), rest)

/-- The table of a dictionary's entries; of a repeated key the last entry counts. -/
def dictionary (entries : List (String × Toml.Value)) : Toml.Value :=
  .table (entries.foldl (fun table entry =>
    table.filter (fun other => other.1 ≠ entry.1) ++ [entry]) [])

/-- Reads a value without blanks around it, in which arrays and dictionaries stand inside each other
to a depth at most. -/
def bare? : Nat → Text.Reader Toml.Value
  | _, 't' :: 'r' :: 'u' :: 'e' :: cs => some (.boolean true, cs)
  | _, 'f' :: 'a' :: 'l' :: 's' :: 'e' :: cs => some (.boolean false, cs)
  | _, '"' :: cs => (Toml.Quoted.basic? cs).map fun read => (.string (.ofList read.1), read.2)
  | _, '\'' :: c :: '\'' :: cs => some (.string (.singleton c), cs)
  | _, '\'' :: _ => none
  | 0, _ => none
  | depth + 1, '[' :: cs =>
    (listed? ']' (spaced (bare? depth)) cs).map fun read => (.array read.1, read.2)
  | depth + 1, '\x7b' :: cs =>
    (listed? '\x7d' (pair? (spaced (bare? depth))) cs).map fun read =>
      (dictionary read.1, read.2)
  | _, cs =>
    some (plain (Text.trim (cs.takeWhile fun c => !isSeparator c)),
      cs.dropWhile fun c => !isSeparator c)

/-- The value of a variable. -/
def value (text : String) : Toml.Value :=
  match spaced (bare? (text.length + 1)) text.toList with
  | some (value, []) => value
  | _ => .string text

/-! ## Names -/

/-- What the names of variables that are settings start with. -/
def mark : List Char := "sqlsearch_".toList

/-- The parts of a name between points and `__`. -/
def parts : List Char → List (List Char)
  | [] => [[]]
  | '_' :: '_' :: cs => [] :: parts cs
  | c :: cs =>
    if c = '.' then [] :: parts cs
    else match parts cs with
      | [] => [[c]]
      | part :: rest => (c :: part) :: rest

/-- The keys that a variable's name leads through, in lower case. -/
def path? (name : String) : Option (List String) :=
  let name := Text.lower (Text.trim name.toList)
  if mark <+: name then
    let path := parts (Text.trim (name.drop mark.length))
    if path.any List.isEmpty then none else some (path.map String.ofList)
  else none

/-- A value under a path of keys. -/
def nest (path : List String) (value : Toml.Value) : Toml.Value :=
  path.foldr (fun key value => .table [(key, value)]) value

/-- What variables set; a later variable counts more. -/
def table (environment : List (String × String)) : Toml.Table :=
  environment.foldl (fun lower (name, text) =>
    match path? name with
    | none => lower
    | some path => match (nest path (value text)).overlay (.table lower) with
      | .table entries => entries
      | _ => lower) []

end Environment

/-- Loads settings: what the environment sets, else what a file sets, else the defaults. The file
may be missing. The settings are checked. -/
def Settings.load (file : Option String) (environment : List (String × String)) :
    Except SettingsError Settings := do
  let lower ← match file with
    | none => pure []
    | some text => tableOf text
  let settings ← ofTable (Toml.overlayEntries (Environment.table environment) lower)
  settings.check
  return settings

end SearchJoin
