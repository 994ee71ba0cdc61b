import SearchJoin.Number.Binary64

/-!
# Decimal numbers and binary64

Reading a decimal gives the nearest binary64 number. Writing a binary64 number gives a decimal of
the fewest digits that reads back as it, and of those the nearest.
-/

namespace SearchJoin

/-- The decimal number `± digits · 10 ^ exponent`. -/
structure Decimal where
  /-- The sign. -/
  negative : Bool
  /-- The significant digits, read as one number. -/
  digits : Nat
  /-- The power of ten that the last digit counts. -/
  exponent : Int
  deriving DecidableEq

namespace Decimal

/-- The numerator and the denominator of `digits · 10 ^ exponent`. -/
def ratio (digits : Nat) (exponent : Int) : Nat × Nat :=
  match exponent with
  | .ofNat n => (digits * Nat.pow 10 n, 1)
  | .negSucc n => (digits, Nat.pow 10 (n + 1))

/-- The nearest binary64 number; none when the decimal is too large for one. Beyond
`10 ^ 400` and below `10 ^ -400` the answer is known without the powers of ten. -/
def toBinary64? (d : Decimal) : Option Binary64 :=
  if d.digits = 0 then some (.zero d.negative)
  else if 400 < d.exponent then none
  else if d.exponent + (d.digits.log2 : Int) < -400 then some (.zero d.negative)
  else
    let (num, den) := ratio d.digits d.exponent
    Binary64.nearest? d.negative (num * Binary64.unitsPerOne) den

/-- Moves zeros at the end of the digits into the exponent, `fuel` of them at most. -/
def trimZeros (digits : Nat) (exponent : Int) : Nat → Nat × Int
  | 0 => (digits, exponent)
  | fuel + 1 =>
    if digits ≠ 0 ∧ digits % 10 = 0 then trimZeros (digits / 10) (exponent + 1) fuel
    else (digits, exponent)

end Decimal

namespace Binary64

/-- The power of ten of the first significant digit, for a number that is not zero. -/
def leadingPower (x : Binary64) : Int :=
  let scaled := x.magnitude * Nat.pow 10 400 / unitsPerOne
  ((Nat.toDigits 10 scaled).length : Int) - 401

/-- The decimal `digits · 10 ^ exponent` reads back as `x`. -/
def readsBack (x : Binary64) (digits : Nat) (exponent : Int) : Bool :=
  Decimal.toBinary64? ⟨x.negative, digits, exponent⟩ = some x

/-- A decimal on the grid of step `10 ^ exponent` that reads back as `x`: one of the two
neighbours of `x`, and the nearer one if both do; of two as near the even one. -/
def onGrid? (x : Binary64) (exponent : Int) : Option Nat :=
  let (num, den) := match exponent with
    | .ofNat n => (x.magnitude, unitsPerOne * Nat.pow 10 n)
    | .negSucc n => (x.magnitude * Nat.pow 10 (n + 1), unitsPerOne)
  let below := num / den
  let above := below + 1
  match x.readsBack below exponent, x.readsBack above exponent with
  | true, true => some (roundHalfEven num den)
  | true, false => some below
  | false, true => some above
  | false, false => none

/-- The coarsest of `count` grids, from `10 ^ exponent` downwards, that holds a decimal which reads
back as `x`. -/
def coarsestGrid? (x : Binary64) (exponent : Int) : Nat → Option (Nat × Int)
  | 0 => none
  | count + 1 =>
    match x.onGrid? exponent with
    | some digits => some (digits, exponent)
    | none => x.coarsestGrid? (exponent - 1) count

/-- The decimal of the fewest digits that reads back as `x`. Seventeen digits always suffice; the
exact expansion stands behind them. -/
def shortest (x : Binary64) : Decimal :=
  if x.magnitude = 0 then ⟨x.negative, 0, 0⟩
  else
    let (digits, exponent) := (x.coarsestGrid? x.leadingPower 17).getD
      (x.magnitude * Nat.pow 5 1074, -1074)
    let (digits, exponent) := Decimal.trimZeros digits exponent 400
    ⟨x.negative, digits, exponent⟩

end Binary64

end SearchJoin
