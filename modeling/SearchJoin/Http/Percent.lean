import SearchJoin.Text.Digits

/-!
# Percent-encoding

A byte that may not stand in a part of a URL is written as `%` and two hexadecimal digits.
-/

namespace SearchJoin.Http.Percent

/-- A byte, percent-encoded. -/
def encodeByte (b : UInt8) : List Char :=
  ['%', Text.upperHexDigit (b.toNat / 16), Text.upperHexDigit (b.toNat % 16)]

/-- The character is a control character or no ASCII character. -/
def isOutside (c : Char) : Bool := c.toNat < 0x20 || c.toNat > 0x7E

/-- A text in which the characters of a set, and all outside of printable ASCII, are
percent-encoded. -/
def encode (set : List Char) (cs : List Char) : List Char :=
  cs.flatMap fun c =>
    if isOutside c || set.contains c then (String.utf8EncodeChar c).flatMap encodeByte else [c]

/-- The byte that a percent-encoded text of two digits stands for. -/
def byte? (high low : Char) : Option UInt8 :=
  (Text.inBase? 16 [high, low]).map UInt8.ofNat

/-- The bytes of a text, with percent-encoded bytes decoded. A `%` without two digits behind it
stands for itself. -/
def decodeBytes : List Char → List UInt8
  | [] => []
  | c :: cs =>
    let coded := match c, cs with
      | '%', high :: low :: _ => byte? high low
      | _, _ => none
    match coded with
    | some b => b :: decodeBytes (cs.drop 2)
    | none => String.utf8EncodeChar c ++ decodeBytes cs
termination_by cs => cs.length

/-- The text with percent-encoded bytes decoded, if it is valid UTF-8. -/
def decode? (cs : List Char) : Option (List Char) :=
  (String.fromUTF8? ⟨(decodeBytes cs).toArray⟩).map String.toList

end SearchJoin.Http.Percent
