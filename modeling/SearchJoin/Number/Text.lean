import SearchJoin.Number.Basic
import SearchJoin.Text.Digits

/-!
# Numbers as text

The grammar of JSON numbers, and the text that a number is written as. An integer literal that fits
a machine word is an integer; `-0`, every fraction and every exponent is binary64.
-/

namespace SearchJoin

/-- Where a binary64 number is written with an exponent, and where it is not. -/
structure FloatLayout where
  /-- The least power of ten of a leading digit that is written without an exponent. -/
  leastPlain : Int
  /-- The greatest such power. -/
  greatestPlain : Int
  /-- The sign that a positive exponent is written with. -/
  positiveExponent : List Char
  deriving DecidableEq

/-- Numbers in JSON text: plain between `0.00001` and `10 ^ 16`, else with a signed exponent. -/
def Number.layout : FloatLayout := ⟨-5, 15, ['+']⟩

namespace Decimal

/-- The digits with a point after the one that counts `10 ^ 0`, and at least one digit on each side
of it. `lead` is the power of ten of the first digit. -/
def plainText (digits : List Char) (lead : Int) : List Char :=
  match lead with
  | .ofNat n =>
    if digits.length ≤ n + 1 then
      digits ++ List.replicate (n + 1 - digits.length) '0' ++ ['.', '0']
    else digits.take (n + 1) ++ ['.'] ++ digits.drop (n + 1)
  | .negSucc n => ['0', '.'] ++ List.replicate n '0' ++ digits

/-- One digit, a point before further digits, and the exponent. -/
def scientificText (layout : FloatLayout) (digits : List Char) (lead : Int) : List Char :=
  let fraction := if digits.length ≤ 1 then [] else '.' :: digits.drop 1
  let exponent := match lead with
    | .ofNat n => layout.positiveExponent ++ Text.decimalDigits n
    | .negSucc n => '-' :: Text.decimalDigits (n + 1)
  digits.take 1 ++ fraction ++ ['e'] ++ exponent

/-- The text of a decimal in a layout. -/
def text (layout : FloatLayout) (d : Decimal) : List Char :=
  let digits := Text.decimalDigits d.digits
  let lead := if d.digits = 0 then 0 else d.exponent + (digits.length : Int) - 1
  let body :=
    if layout.leastPlain ≤ lead ∧ lead ≤ layout.greatestPlain then plainText digits lead
    else scientificText layout digits lead
  if d.negative then '-' :: body else body

end Decimal

namespace Number

/-- The text of a number. -/
def text : Number → List Char
  | .int i => match i.value with
    | .ofNat n => Text.decimalDigits n
    | .negSucc n => '-' :: Text.decimalDigits (n + 1)
  | .float x => x.shortest.text layout

/-- The parts of a number's text. -/
structure Literal where
  /-- A minus sign stands in front. -/
  negative : Bool
  /-- The digits before the point. -/
  whole : List Char
  /-- The digits after the point. -/
  fraction : List Char
  /-- The exponent. -/
  exponent : Int
  /-- Neither a point nor an exponent is written. -/
  isInteger : Bool

/-- The exponent at the end of a number's text: `e` or `E`, a sign at will, digits. -/
def exponent? : List Char → Option Int
  | '+' :: rest => (Text.natural? rest).map fun n => (n : Int)
  | '-' :: rest => (Text.natural? rest).map fun n => -(n : Int)
  | cs => (Text.natural? cs).map fun n => (n : Int)

/-- Reads the parts of a number's text: `0` or digits that do not start with `0`, then at will a
point with digits, then at will an exponent. -/
def Literal.read? (cs : List Char) : Option Literal :=
  let (negative, cs) := match cs with
    | '-' :: rest => (true, rest)
    | _ => (false, cs)
  let whole := cs.takeWhile Char.isDigit
  let rest := cs.dropWhile Char.isDigit
  if whole = [] ∨ (whole.length > 1 ∧ whole.head? = some '0') then none
  else match rest with
    | [] => some ⟨negative, whole, [], 0, true⟩
    | '.' :: rest =>
      let fraction := rest.takeWhile Char.isDigit
      if fraction = [] then none
      else match rest.dropWhile Char.isDigit with
        | [] => some ⟨negative, whole, fraction, 0, false⟩
        | e :: rest =>
          if e = 'e' ∨ e = 'E' then
            (exponent? rest).map fun exponent => ⟨negative, whole, fraction, exponent, false⟩
          else none
    | e :: rest =>
      if e = 'e' ∨ e = 'E' then
        (exponent? rest).map fun exponent => ⟨negative, whole, [], exponent, false⟩
      else none

/-- The decimal that the parts denote. -/
def Literal.decimal (l : Literal) : Decimal :=
  ⟨l.negative, Text.ofDecimalDigits (l.whole ++ l.fraction), l.exponent - (l.fraction.length : Int)⟩

/-- The integer that the parts denote, if they are an integer's other than `-0`. -/
def Literal.integer? (l : Literal) : Option Int :=
  let n := Text.ofDecimalDigits l.whole
  if !l.isInteger ∨ (l.negative ∧ n = 0) then none
  else some (if l.negative then -(n : Int) else (n : Int))

/-- Reads a number; none when the text is no number or the number is too large. -/
def read? (cs : List Char) : Option Number :=
  (Literal.read? cs).bind fun l =>
    match l.integer?.bind WordInt.ofInt? with
    | some i => some (.int i)
    | none => l.decimal.toBinary64?.map .float

end Number

end SearchJoin
