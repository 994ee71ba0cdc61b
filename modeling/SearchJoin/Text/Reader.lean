/-!
# Readers

A reader takes a thing from the front of a text and leaves the rest of it. Texts are lists of
characters here.
-/

namespace SearchJoin.Text

/-- Reads a thing; none when the text does not start with one. -/
abbrev Reader (α : Type) := List Char → Option (α × List Char)

/-- The rest of a text that starts with a character. -/
def skip? (c : Char) : List Char → Option (List Char)
  | [] => none
  | d :: cs => if d = c then some cs else none

/-- One or more things with a separator between them. -/
def separated {α : Type} (separator : Char) (item : Reader α) (cs : List Char) :
    Option (List α × List Char) := do
  let (x, rest) ← item cs
  match skip? separator rest with
  | none => return ([x], rest)
  | some rest =>
    if _shorter : rest.length < cs.length then
      let (xs, rest) ← separated separator item rest
      return (x :: xs, rest)
    else none
termination_by cs.length

end SearchJoin.Text
