import SearchJoin.Number.Text
import SearchJoin.Text.Blank
import SearchJoin.Text.Reader
import SearchJoin.Toml.Value

/-!
# Numbers, truth values and dates of TOML

Each is a word of letters, digits and a few signs, and is judged as a whole. Only between a date and
a time a space may stand.
-/

namespace SearchJoin.Toml.Scalar

/-! ## Numbers -/

/-- The digits without the underscores, each of which has to stand between two digits. -/
def joinDigits? (isDigit : Char → Bool) (cs : List Char) : Option (List Char) :=
  let groups := Text.split '_' cs
  if groups.all fun group => group ≠ [] && group.all isDigit then some groups.flatten else none

/-- The digits of an integer in decimal, of which the first is no zero unless it is alone. -/
def wholeDigits? (cs : List Char) : Option (List Char) :=
  (joinDigits? Char.isDigit cs).bind fun digits =>
    if digits.length > 1 ∧ digits.head? = some '0' then none else some digits

/-- A sign in front of a text: whether it is a minus, and the text without it. -/
def sign : List Char → Bool × List Char
  | '-' :: cs => (true, cs)
  | '+' :: cs => (false, cs)
  | cs => (false, cs)

/-- The integer as a value, if it fits a signed word. -/
def integerValue? (n : Int) : Option Value :=
  if -0x8000000000000000 ≤ n ∧ n < 0x8000000000000000 then some (.integer n) else none

/-- An unsigned integer whose digits stand in a base. -/
def inBase? (base : Nat) (cs : List Char) : Option Value := do
  let isDigit (c : Char) : Bool := (Text.hexValue? c).any (· < base)
  integerValue? (← Text.inBase? base (← joinDigits? isDigit cs))

/-- Reads an integer: decimal with a sign at will, or hexadecimal, octal or binary. -/
def integer? : List Char → Option Value
  | '0' :: 'x' :: cs => inBase? 16 cs
  | '0' :: 'o' :: cs => inBase? 8 cs
  | '0' :: 'b' :: cs => inBase? 2 cs
  | cs => do
    let (negative, cs) := sign cs
    let n : Int := Text.ofDecimalDigits (← wholeDigits? cs)
    integerValue? (if negative then -n else n)

/-- The exponent of a float without underscores; it may be missing. -/
def exponentDigits? : List Char → Option (List Char)
  | [] => some []
  | _ :: cs =>
    let (negative, cs) := sign cs
    (joinDigits? Char.isDigit cs).map fun digits =>
      'e' :: if negative then '-' :: digits else digits

/-- The text of a float without a sign and underscores: an integer, then a fraction, an exponent or
both. -/
def floatDigits? (cs : List Char) : Option (List Char) := do
  let isExponent (c : Char) : Bool := c = 'e' || c = 'E'
  let mantissa := cs.takeWhile fun c => !isExponent c
  let exponent ← exponentDigits? (cs.dropWhile fun c => !isExponent c)
  let whole ← wholeDigits? (mantissa.takeWhile (· ≠ '.'))
  let fraction ← match mantissa.dropWhile (· ≠ '.') with
    | [] => some []
    | _ :: cs => (joinDigits? Char.isDigit cs).map ('.' :: ·)
  if fraction = [] ∧ exponent = [] then none else some (whole ++ fraction ++ exponent)

/-- Reads a float. One that is too large is refused unless it is negative. -/
def float? (cs : List Char) : Option Value := do
  let (negative, unsigned) := sign cs
  if unsigned = ['i', 'n', 'f'] ∨ unsigned = ['n', 'a', 'n'] then return .float (.ofList cs)
  let digits ← floatDigits? unsigned
  guard (negative ∨ (Number.read? digits).isSome)
  return .float (.ofList cs)

/-! ## Dates and times -/

/-- Reads two digits whose number is in a range. -/
def twoDigits? (least greatest : Nat) : Text.Reader Nat
  | a :: b :: cs =>
    (Text.natural? [a, b]).bind fun n =>
      if least ≤ n ∧ n ≤ greatest then some (n, cs) else none
  | _ => none

/-- How many days a month of a year has. -/
def daysIn (year month : Nat) : Nat :=
  if month = 2 then if year % 4 = 0 ∧ (year % 100 ≠ 0 ∨ year % 400 = 0) then 29 else 28
  else if month = 4 ∨ month = 6 ∨ month = 9 ∨ month = 11 then 30
  else 31

/-- The text after a date. -/
def afterDate? (cs : List Char) : Option (List Char) := do
  let year ← Text.natural? (cs.take 4)
  let (month, rest) ← twoDigits? 1 12 (← Text.skip? '-' (cs.drop 4))
  let (_, rest) ← twoDigits? 1 (daysIn year month) (← Text.skip? '-' rest)
  return rest

/-- The text after hours and minutes. -/
def afterMinutes? (cs : List Char) : Option (List Char) := do
  let (_, rest) ← twoDigits? 0 23 cs
  let (_, rest) ← twoDigits? 0 59 (← Text.skip? ':' rest)
  return rest

/-- The text after a time. -/
def afterTime? (cs : List Char) : Option (List Char) := do
  let (_, rest) ← twoDigits? 0 60 (← Text.skip? ':' (← afterMinutes? cs))
  match rest with
  | '.' :: rest =>
    guard ((rest.head?.map Char.isDigit).getD false)
    return rest.dropWhile Char.isDigit
  | rest => return rest

/-- The text is an offset from the universal time. -/
def isOffset : List Char → Bool
  | ['Z'] => true
  | ['z'] => true
  | '+' :: cs => afterMinutes? cs = some []
  | '-' :: cs => afterMinutes? cs = some []
  | _ => false

/-- The text is a time, with an offset at will. -/
def isTimeWithOffset (cs : List Char) : Bool :=
  (afterTime? cs).any fun rest => rest.isEmpty || isOffset rest

/-- Reads a date, a time, or both with `T` between them. -/
def datetime? (cs : List Char) : Option Value :=
  let isDatetime : Bool := match afterDate? cs with
    | none => afterTime? cs == some []
    | some [] => true
    | some ('T' :: rest) => isTimeWithOffset rest
    | some ('t' :: rest) => isTimeWithOffset rest
    | some _ => false
  if isDatetime then some (.datetime (.ofList cs)) else none

/-! ## Words -/

/-- Reads a word. -/
def ofWord? (cs : List Char) : Option Value :=
  if cs = ['t', 'r', 'u', 'e'] then some (.boolean true)
  else if cs = ['f', 'a', 'l', 's', 'e'] then some (.boolean false)
  else datetime? cs <|> float? cs <|> integer? cs

/-- Characters of a word. -/
def isWordChar (c : Char) : Bool :=
  c.isAlphanum || c = '_' || c = '+' || c = '-' || c = '.' || c = ':'

/-- Reads a number, a truth value or a date at the front of a text. After a date a space and a digit
lead on to a time. -/
def read? (cs : List Char) : Option (Value × List Char) :=
  let word := cs.takeWhile isWordChar
  let rest := cs.dropWhile isWordChar
  match rest with
  | ' ' :: next =>
    if afterDate? word = some [] ∧ (next.head?.map Char.isDigit).getD false then
      let time := next.takeWhile isWordChar
      (datetime? (word ++ 'T' :: time)).map fun value => (value, next.dropWhile isWordChar)
    else (ofWord? word).map fun value => (value, rest)
  | _ => (ofWord? word).map fun value => (value, rest)

end SearchJoin.Toml.Scalar
