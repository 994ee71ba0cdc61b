/-!
# Blanks and pieces of text

Texts are lists of characters here. A blank is a character of the Unicode property `White_Space`.
-/

namespace SearchJoin.Text

/-- The characters of the property `White_Space`, as ranges of code points. -/
def blankRanges : List (Nat × Nat) :=
  [(0x09, 0x0D), (0x20, 0x20), (0x85, 0x85), (0xA0, 0xA0), (0x1680, 0x1680), (0x2000, 0x200A),
    (0x2028, 0x2029), (0x202F, 0x202F), (0x205F, 0x205F), (0x3000, 0x3000)]

/-- The character is a blank. -/
def isBlank (c : Char) : Bool :=
  blankRanges.any fun range => range.1 ≤ c.toNat && c.toNat ≤ range.2

/-- The text without the blanks in front. -/
def trimStart (cs : List Char) : List Char := cs.dropWhile isBlank

/-- The text without the blanks at its end. -/
def trimEnd (cs : List Char) : List Char := (cs.reverse.dropWhile isBlank).reverse

/-- The text without the blanks around it. -/
def trim (cs : List Char) : List Char := trimEnd (trimStart cs)

/-- The text without the copies of `mark` in front. -/
def dropCopies (mark cs : List Char) : List Char :=
  if mark ≠ [] ∧ mark <+: cs then dropCopies mark (cs.drop mark.length) else cs
termination_by cs.length
decreasing_by
  rename_i h
  obtain ⟨nonempty, rest, rfl⟩ := h
  have := List.length_pos_iff.2 nonempty
  simp only [List.drop_left, List.length_append]
  omega

theorem dropCopies_of_not_isPrefix {mark cs : List Char} (h : ¬ mark <+: cs) :
    dropCopies mark cs = cs := by
  rw [dropCopies, if_neg fun hmark => h hmark.2]

/-- The text without the copies of `mark` at its end. -/
def dropCopiesEnd (mark cs : List Char) : List Char :=
  (dropCopies mark.reverse cs.reverse).reverse

/-- The pieces between the separators: one more than there are separators. -/
def split (separator : Char) : List Char → List (List Char)
  | [] => [[]]
  | c :: cs =>
    if c = separator then [] :: split separator cs
    else match split separator cs with
      | [] => [[c]]
      | piece :: pieces => (c :: piece) :: pieces

theorem split_of_notMem {separator : Char} {cs : List Char} (h : separator ∉ cs) :
    split separator cs = [cs] := by
  induction cs with
  | nil => rfl
  | cons c cs ih =>
    obtain ⟨hne, hrest⟩ := not_or.1 (mt List.mem_cons.2 h)
    rw [split, if_neg (Ne.symm hne), ih hrest]

/-- The text with its ASCII letters in upper case. -/
def upper (cs : List Char) : List Char := cs.map Char.toUpper

/-- The text with its ASCII letters in lower case. -/
def lower (cs : List Char) : List Char := cs.map Char.toLower

end SearchJoin.Text
