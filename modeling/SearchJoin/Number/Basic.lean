import SearchJoin.Number.Decimal

/-!
# Numbers of JSON

A JSON number is an integer that fits a machine word, signed or unsigned, or a binary64 number. The
two kinds stay apart: `1` and `1.0` are different numbers that compare as equal.

Two orders are defined on numbers. `exactUnits` is the exact value. `order` is the order that
predicates use: two signed integers compare exactly, all else after both are rounded to binary64.
-/

namespace SearchJoin

/-- An integer of the range `-2 ^ 63 … 2 ^ 64 - 1`, which a machine word holds. -/
structure WordInt where
  /-- The integer. -/
  value : Int
  /-- It fits a signed or an unsigned word. -/
  inRange : -0x8000000000000000 ≤ value ∧ value < 0x10000000000000000
  deriving DecidableEq

namespace WordInt

/-- The integer as a word, when it fits one. -/
def ofInt? (value : Int) : Option WordInt :=
  if inRange : -0x8000000000000000 ≤ value ∧ value < 0x10000000000000000 then
    some ⟨value, inRange⟩
  else none

/-- An unsigned word. -/
def ofUInt64 (n : UInt64) : WordInt :=
  ⟨n.toNat, by have := n.toNat_lt; omega⟩

/-- The unsigned word, unless the integer is negative. -/
def toUInt64? (i : WordInt) : Option UInt64 :=
  if 0 ≤ i.value then some (UInt64.ofNat i.value.toNat) else none

/-- The integer fits a signed word. -/
def isSigned (i : WordInt) : Bool := i.value < 0x8000000000000000

end WordInt

/-- A JSON number. -/
inductive Number where
  /-- An integer. -/
  | int (value : WordInt)
  /-- A binary64 number, which was written with a point or an exponent, or is no machine word. -/
  | float (value : Binary64)
  deriving DecidableEq

namespace Number

/-- The exact value, in units of `2 ^ -1074`. -/
def exactUnits : Number → Int
  | .int i => i.value * Binary64.unitsPerOne
  | .float x => x.units

/-- The value rounded to binary64, in units of `2 ^ -1074`. -/
def roundedUnits : Number → Int
  | .int i =>
    let rounded : Int := roundTo53Bits i.value.natAbs * Binary64.unitsPerOne
    if i.value < 0 then -rounded else rounded
  | .float x => x.units

/-- The integer, if the number is written as one and fits a signed word. -/
def toSigned? : Number → Option Int
  | .int i => if i.isSigned then some i.value else none
  | .float _ => none

/-- The order of two numbers: exact on signed integers, else after rounding to binary64. -/
def order (a b : Number) : Ordering :=
  match a.toSigned?, b.toSigned? with
  | some i, some j => compare i j
  | _, _ => compare a.roundedUnits b.roundedUnits

/-- The numbers are the same: of one kind and of one value. The two zeros of binary64 are one. -/
def same : Number → Number → Bool
  | .int i, .int j => i.value == j.value
  | .float x, .float y => x.units == y.units
  | _, _ => false

/-- An unsigned word as a number. -/
def ofUInt64 (n : UInt64) : Number := .int (.ofUInt64 n)

/-- The unsigned word, if the number is written as one. -/
def toUInt64? : Number → Option UInt64
  | .int i => i.toUInt64?
  | .float _ => none

end Number

end SearchJoin
