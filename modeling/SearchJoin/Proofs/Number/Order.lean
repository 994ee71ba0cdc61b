import SearchJoin.Proofs.Number.Rounding
import SearchJoin.Proofs.Predicate.Comparison

/-!
# The order of numbers

Two signed integers compare by their exact values, all other numbers after they are rounded to binary64.
So the order is that of the exact values, but for different values that are rounded alike: unless both are
signed integers, they count as equal.

Main statement: `Value.order?_num`.
-/

namespace SearchJoin

namespace Number

/-- The number is written as an integer and fits a signed word. -/
def isSigned (a : Number) : Bool := a.toSigned?.isSome

/-- Both are signed integers, or they stay different when they are rounded. -/
def comparesExactly (a b : Number) : Bool :=
  (a.isSigned && b.isSigned) || a.roundedUnits != b.roundedUnits

variable {a b c : Number}

theorem exactUnits_of_toSigned? {i : Int} (h : a.toSigned? = some i) :
    a.exactUnits = i * Binary64.unitsPerOne := by
  cases a with
  | float x => cases h
  | int word =>
    obtain ⟨-, hvalue⟩ := Option.ite_none_right_eq_some.1 h
    cases hvalue
    rfl

theorem order_of_isSigned (ha : a.isSigned = true) (hb : b.isSigned = true) :
    a.order b = compare a.exactUnits b.exactUnits := by
  obtain ⟨i, hi⟩ := Option.isSome_iff_exists.1 ha
  obtain ⟨j, hj⟩ := Option.isSome_iff_exists.1 hb
  have hpos := Binary64.cast_unitsPerOne_pos
  rw [order, hi, hj, exactUnits_of_toSigned? hi, exactUnits_of_toSigned? hj]
  dsimp only
  rcases Int.lt_trichotomy i j with hlt | rfl | hgt
  · rw [Int.compare_eq_lt.2 hlt, Int.compare_eq_lt.2 (Int.mul_lt_mul_of_pos_right hlt hpos)]
  · rw [Int.compare_eq_eq.2 rfl, Int.compare_eq_eq.2 rfl]
  · rw [Int.compare_eq_gt.2 hgt, Int.compare_eq_gt.2 (Int.mul_lt_mul_of_pos_right hgt hpos)]

theorem order_of_not_isSigned (h : (a.isSigned && b.isSigned) = false) :
    a.order b = compare a.roundedUnits b.roundedUnits := by
  unfold isSigned at h
  unfold order
  cases ha : a.toSigned? with
  | none => rfl
  | some i =>
    cases hb : b.toSigned? with
    | none => rfl
    | some j => rw [ha, hb] at h; cases h

/-- Numbers compare by their exact values; where they do not, they count as equal. -/
theorem order_eq (a b : Number) :
    a.order b = if a.comparesExactly b then compare a.exactUnits b.exactUnits else .eq := by
  cases hsigned : a.isSigned && b.isSigned with
  | true =>
    obtain ⟨ha, hb⟩ := Bool.and_eq_true_iff.1 hsigned
    rw [order_of_isSigned ha hb, comparesExactly, hsigned, Bool.true_or, if_pos rfl]
  | false =>
    rw [order_of_not_isSigned hsigned, comparesExactly, hsigned, Bool.false_or]
    by_cases hrounded : a.roundedUnits = b.roundedUnits
    · rw [if_neg (by simp [hrounded]), Int.compare_eq_eq.2 hrounded]
    · rw [if_pos (by simp [hrounded])]
      -- Rounding keeps the order of the exact values, and keeps these two apart.
      rcases Int.lt_trichotomy a.exactUnits b.exactUnits with hlt | heq | hgt
      · have hle := roundedUnits_mono hlt.le
        rw [Int.compare_eq_lt.2 hlt, Int.compare_eq_lt.2 (by omega)]
      · exact absurd (roundedUnits_eq_of_exactUnits_eq heq) hrounded
      · have hle := roundedUnits_mono hgt.le
        rw [Int.compare_eq_gt.2 hgt, Int.compare_eq_gt.2 (by omega)]

theorem order_eq_lt_iff :
    a.order b = .lt ↔ a.exactUnits < b.exactUnits ∧ a.comparesExactly b = true := by
  rw [order_eq]
  by_cases hexact : a.comparesExactly b = true
  · rw [if_pos hexact, Int.compare_eq_lt, and_iff_left hexact]
  · simp [hexact]

theorem order_eq_eq_iff :
    a.order b = .eq ↔ a.roundedUnits = b.roundedUnits ∧
      (a.isSigned = true → b.isSigned = true → a.exactUnits = b.exactUnits) := by
  cases hsigned : a.isSigned && b.isSigned with
  | true =>
    obtain ⟨ha, hb⟩ := Bool.and_eq_true_iff.1 hsigned
    rw [order_of_isSigned ha hb, Int.compare_eq_eq]
    exact ⟨fun heq => ⟨roundedUnits_eq_of_exactUnits_eq heq, fun _ _ => heq⟩, fun h => h.2 ha hb⟩
  | false =>
    rw [order_of_not_isSigned hsigned, Int.compare_eq_eq]
    refine ⟨fun heq => ⟨heq, fun ha hb => ?_⟩, And.left⟩
    rw [ha, hb] at hsigned
    cases hsigned

/-- Numbers of one exact value compare as equal. -/
theorem order_eq_eq_of_exactUnits_eq (h : a.exactUnits = b.exactUnits) : a.order b = .eq :=
  order_eq_eq_iff.2 ⟨roundedUnits_eq_of_exactUnits_eq h, fun _ _ => h⟩

theorem order_self (a : Number) : a.order a = .eq := order_eq_eq_of_exactUnits_eq rfl

/-- To be less is transitive, whatever the three numbers are written as. -/
theorem order_eq_lt_trans (hab : a.order b = .lt) (hbc : b.order c = .lt) : a.order c = .lt := by
  obtain ⟨hltab, hexactab⟩ := order_eq_lt_iff.1 hab
  obtain ⟨hltbc, hexactbc⟩ := order_eq_lt_iff.1 hbc
  refine order_eq_lt_iff.2 ⟨hltab.trans hltbc, ?_⟩
  have hleab := roundedUnits_mono hltab.le
  have hlebc := roundedUnits_mono hltbc.le
  unfold comparesExactly at hexactab hexactbc ⊢
  by_cases hrounded : a.roundedUnits = c.roundedUnits
  · -- Then all three are rounded alike, so they are all signed integers.
    have hroundedab : a.roundedUnits = b.roundedUnits := by omega
    have hroundedbc : b.roundedUnits = c.roundedUnits := by omega
    simp_all
  · simp [hrounded]

/-- To count as equal is transitive, unless a number between two signed integers is none itself. -/
theorem order_eq_eq_trans (hab : a.order b = .eq) (hbc : b.order c = .eq)
    (hsigned : a.isSigned = true → c.isSigned = true → b.isSigned = true) : a.order c = .eq := by
  obtain ⟨hroundedab, hexactab⟩ := order_eq_eq_iff.1 hab
  obtain ⟨hroundedbc, hexactbc⟩ := order_eq_eq_iff.1 hbc
  refine order_eq_eq_iff.2 ⟨hroundedab.trans hroundedbc, fun ha hc => ?_⟩
  have hb := hsigned ha hc
  exact (hexactab ha hb).trans (hexactbc hb hc)

end Number

namespace Value

theorem isLt_num {x y : Number} : (num x).isLt (num y) = true ↔ x.order y = .lt := by
  unfold isLt order? num
  dsimp only
  cases x.order y <;> decide

theorem equal_num {x y : Number} : (num x).equal (num y) = true ↔ x.order y = .eq := by
  unfold equal num
  dsimp only
  cases x.order y <;> decide

/-- Two numbers compare by their exact values, unless they are rounded alike and are not both signed
integers: then they count as equal. To be less is transitive. To be equal is reflexive and symmetric, and
transitive when a number between two signed integers is one too. -/
theorem order?_num (x y z : Number) :
    (num x).order? (num y) =
        some (if x.comparesExactly y then compare x.exactUnits y.exactUnits else .eq) ∧
      ((num x).isLt (num y) = true → (num y).isLt (num z) = true → (num x).isLt (num z) = true) ∧
      (num x).equal (num x) = true ∧
      (num x).equal (num y) = (num y).equal (num x) ∧
      ((num x).equal (num y) = true → (num y).equal (num z) = true →
        (x.isSigned = true → z.isSigned = true → y.isSigned = true) →
        (num x).equal (num z) = true) := by
  refine ⟨congrArg some (x.order_eq y), fun hxy hyz => ?_, equal_num.2 x.order_self,
    equal_comm rfl _, fun hxy hyz hsigned => ?_⟩
  · exact isLt_num.2 (Number.order_eq_lt_trans (isLt_num.1 hxy) (isLt_num.1 hyz))
  · exact equal_num.2 (Number.order_eq_eq_trans (equal_num.1 hxy) (equal_num.1 hyz) hsigned)

namespace Sample

/-- The integer `2 ^ 53`. -/
def even : Number := .int ⟨0x20000000000000, by decide⟩

/-- The integer after it, which binary64 cannot hold. -/
def odd : Number := .int ⟨0x20000000000001, by decide⟩

/-- `2 ^ 53` as a binary64 number. -/
def evenFloat : Number := .float ⟨false, 0x10000000000000, 1075, by decide⟩

/-- The largest unsigned word. -/
def largest : Number := .int ⟨0xFFFFFFFFFFFFFFFF, by decide⟩

/-- The unsigned word before it. -/
def nextToLargest : Number := .int ⟨0xFFFFFFFFFFFFFFFE, by decide⟩

/-- One and a half. -/
def oneAndHalf : Number := .float ⟨false, 0x18000000000000, 1022, by decide⟩

end Sample

open Sample in
/-- A fraction lies below an integer, and an unsigned word above it; a binary64 number equals an integer
that is rounded to it. -/
theorem order?_num_sample :
    ((num oneAndHalf).isLt (num odd) = true ∧ (num odd).isLt (num largest) = true ∧
        (num oneAndHalf).isLt (num largest) = true) ∧
      ((num odd).equal (num evenFloat) = true ∧ (num evenFloat).equal (num evenFloat) = true ∧
        evenFloat.isSigned = false ∧ (num odd).equal (num evenFloat) = true) := by
  have hlt : (num oneAndHalf).isLt (num odd) = true := by decide +kernel
  have hlt' : (num odd).isLt (num largest) = true := by decide +kernel
  have hequal : (num odd).equal (num evenFloat) = true := by decide +kernel
  have hequal' := (order?_num evenFloat evenFloat evenFloat).2.2.1
  have hfloat : evenFloat.isSigned = false := rfl
  refine ⟨⟨hlt, hlt', (order?_num oneAndHalf odd largest).2.1 hlt hlt'⟩, hequal, hequal', hfloat, ?_⟩
  refine (order?_num odd evenFloat evenFloat).2.2.2.2 hequal hequal' fun _ hsigned => ?_
  rw [hfloat] at hsigned
  cases hsigned

open Sample in
/-- A binary64 number equals two different integers, and two different unsigned words are equal. -/
theorem equal_of_rounded_alike :
    (num odd).equal (num evenFloat) = true ∧ (num evenFloat).equal (num even) = true ∧
      (num odd).equal (num even) = false ∧ odd.exactUnits ≠ evenFloat.exactUnits ∧
      (num largest).order? (num nextToLargest) = some .eq ∧
      nextToLargest.exactUnits < largest.exactUnits := by
  decide +kernel

end Value

end SearchJoin
