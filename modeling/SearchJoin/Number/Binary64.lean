/-!
# Binary64 numbers

The finite numbers of the 64-bit binary floating-point format, and rounding to the nearest of
them. All arithmetic is exact: every number of the format is a whole multiple of the unit
`2 ^ -1074`, and `units` is that multiple.
-/

namespace SearchJoin

/-- The quotient `num / den`, rounded to the nearest integer and a half to the even neighbour. -/
def roundHalfEven (num den : Nat) : Nat :=
  let floor := num / den
  match compare (2 * (num % den)) den with
  | .lt => floor
  | .gt => floor + 1
  | .eq => if floor % 2 = 0 then floor else floor + 1

/-- The number of binary places that have to go for `n` to keep 53 of them. -/
def excessBits (n : Nat) : Nat := n.log2 - 52

/-- The nearest integer of at most 53 significant binary digits, a half to the even neighbour. -/
def roundTo53Bits (n : Nat) : Nat :=
  roundHalfEven n (Nat.pow 2 (excessBits n)) * Nat.pow 2 (excessBits n)

/-- A finite number of the format: `± significand · 2 ^ shift` units of `2 ^ -1074`. -/
structure Binary64 where
  /-- The sign, which zero has too. -/
  negative : Bool
  /-- The significand, an integer of at most 53 binary digits. -/
  significand : Nat
  /-- How often the significand is doubled. -/
  shift : Nat
  /-- A number has one form: the significand is full, or it is not shifted at all. -/
  stored : significand < 0x20000000000000 ∧ shift ≤ 2045 ∧
    (0x10000000000000 ≤ significand ∨ shift = 0)
  deriving DecidableEq

namespace Binary64

/-- How many units make one. -/
def unitsPerOne : Nat := Nat.pow 2 1074

/-- The size of a number in units of `2 ^ -1074`. -/
def magnitude (x : Binary64) : Nat := x.significand * Nat.pow 2 x.shift

/-- The number in units of `2 ^ -1074`, its exact value. -/
def units (x : Binary64) : Int :=
  if x.negative then -(x.magnitude : Int) else (x.magnitude : Int)

/-- Zero with a sign. -/
def zero (negative : Bool) : Binary64 := ⟨negative, 0, 0, by decide⟩

/-- The number with this sign, significand and shift, when they are in range. -/
def ofParts? (negative : Bool) (significand shift : Nat) : Option Binary64 :=
  if stored : significand < 0x20000000000000 ∧ shift ≤ 2045 ∧
      (0x10000000000000 ≤ significand ∨ shift = 0) then
    some ⟨negative, significand, shift, stored⟩
  else none

/-- The number nearest to `± num / den` units, a half to the even significand; none beyond the
largest number. -/
def nearest? (negative : Bool) (num den : Nat) : Option Binary64 :=
  let shift := excessBits (num / den)
  let significand := roundHalfEven num (den * Nat.pow 2 shift)
  if significand < 0x20000000000000 then ofParts? negative significand shift
  else ofParts? negative 0x10000000000000 (shift + 1)

/-- The integer that the number is, if it is one. -/
def toInt? (x : Binary64) : Option Int :=
  if x.magnitude % unitsPerOne = 0 then some (x.units / (unitsPerOne : Int)) else none

end Binary64

end SearchJoin
