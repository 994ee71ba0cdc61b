import SearchJoin.Json.Basic
import SearchJoin.Number.Text

/-!
# Writing JSON text

`compact` has no blanks. `pretty` has one item or field a line, two blanks for each level, and
writes an empty array or object without a line break. Fields are written in the order in which they
stand, so the text of a tree in normal form has its names in ascending order.
-/

namespace SearchJoin.Json

/-- A hexadecimal digit, in lower case. -/
def hexDigit (n : Nat) : Char := Nat.digitChar n

/-- A character as it stands in a string: quotes, backslashes and control characters escaped. -/
def escape (c : Char) : List Char :=
  if c = '"' then ['\\', '"']
  else if c = '\\' then ['\\', '\\']
  else if c = '\x08' then ['\\', 'b']
  else if c = '\x0c' then ['\\', 'f']
  else if c = '\n' then ['\\', 'n']
  else if c = '\r' then ['\\', 'r']
  else if c = '\t' then ['\\', 't']
  else if c.toNat < 0x20 then
    ['\\', 'u', '0', '0', hexDigit (c.toNat / 16), hexDigit (c.toNat % 16)]
  else [c]

/-- A string with its quotes. -/
def quoted (s : String) : List Char := '"' :: s.toList.flatMap escape ++ ['"']

/-- The text of a tree that is neither an array nor an object. -/
def scalarText : Json → List Char
  | .null => ['n', 'u', 'l', 'l']
  | .bool true => ['t', 'r', 'u', 'e']
  | .bool false => ['f', 'a', 'l', 's', 'e']
  | .num n => n.text
  | .str s => quoted s
  | _ => []

mutual

/-- The text without blanks. -/
def compact : Json → List Char
  | .arr items => '[' :: compactItems items ++ [']']
  | .obj fields => '\x7b' :: compactFields fields ++ ['\x7d']
  | .null => scalarText .null
  | .bool b => scalarText (.bool b)
  | .num n => scalarText (.num n)
  | .str s => scalarText (.str s)

/-- Items with commas between them. -/
def compactItems : List Json → List Char
  | [] => []
  | [item] => compact item
  | item :: items => compact item ++ ',' :: compactItems items

/-- Fields with commas between them. -/
def compactFields : List (String × Json) → List Char
  | [] => []
  | [(name, value)] => quoted name ++ ':' :: compact value
  | (name, value) :: fields => quoted name ++ ':' :: compact value ++ ',' :: compactFields fields

end

/-- The text without blanks, as a string. -/
def compress (tree : Json) : String := String.ofList tree.compact

/-- A line break and the blanks of a level. -/
def newLine (level : Nat) : List Char := '\n' :: List.replicate (2 * level) ' '

mutual

/-- The text with one item or field a line; `level` counts the arrays and objects around it. -/
def prettyAt (level : Nat) : Json → List Char
  | .arr [] => ['[', ']']
  | .arr items => '[' :: prettyItems (level + 1) items ++ newLine level ++ [']']
  | .obj [] => ['\x7b', '\x7d']
  | .obj fields => '\x7b' :: prettyFields (level + 1) fields ++ newLine level ++ ['\x7d']
  | .null => scalarText .null
  | .bool b => scalarText (.bool b)
  | .num n => scalarText (.num n)
  | .str s => scalarText (.str s)

/-- Items, each on its line. -/
def prettyItems (level : Nat) : List Json → List Char
  | [] => []
  | [item] => newLine level ++ prettyAt level item
  | item :: items => newLine level ++ prettyAt level item ++ ',' :: prettyItems level items

/-- Fields, each on its line. -/
def prettyFields (level : Nat) : List (String × Json) → List Char
  | [] => []
  | [(name, value)] => newLine level ++ quoted name ++ ':' :: ' ' :: prettyAt level value
  | (name, value) :: fields =>
    newLine level ++ quoted name ++ ':' :: ' ' :: prettyAt level value ++
      ',' :: prettyFields level fields

end

/-- The text with one item or field a line. -/
def pretty (tree : Json) : String := String.ofList (tree.prettyAt 0)

end SearchJoin.Json
