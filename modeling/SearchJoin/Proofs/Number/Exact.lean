import SearchJoin.Number.Basic
import Mathlib.Tactic.Ring

/-!
# Exact values of numbers

A binary64 number has one form, so numbers other than zero with the same units are the same. A machine
integer and a binary64 number have the same exact value when the one is the integer that the other is.
-/

namespace SearchJoin

namespace Binary64

variable {x y : Binary64}

theorem exists_unitsPerOne_eq : ∃ places, unitsPerOne = 2 ^ places := by
  unfold unitsPerOne
  -- The power is far too large to be evaluated.
  generalize 1074 = places
  exact ⟨places, rfl⟩

theorem unitsPerOne_pos : 0 < unitsPerOne := by
  obtain ⟨places, hplaces⟩ := exists_unitsPerOne_eq
  rw [hplaces]
  exact Nat.two_pow_pos places

theorem cast_unitsPerOne_pos : (0 : Int) < unitsPerOne := Int.natCast_pos.2 unitsPerOne_pos

/-- A number with a larger shift has a full significand, so its magnitude is out of reach for a number
with a smaller one. -/
theorem shift_le_of_magnitude_eq (h : x.magnitude = y.magnitude) : y.shift ≤ x.shift := by
  by_contra hshift
  have hx := x.stored.1
  have hfull : 0x10000000000000 ≤ y.significand := by
    rcases y.stored.2.2 with hy | hy
    · exact hy
    · omega
  have hpow : y.shift = x.shift + 1 + (y.shift - x.shift - 1) := by omega
  have hmagnitude : x.significand * 2 ^ x.shift =
      y.significand * 2 * 2 ^ (y.shift - x.shift - 1) * 2 ^ x.shift := by
    calc x.significand * 2 ^ x.shift = y.significand * 2 ^ y.shift := h
      _ = y.significand * 2 ^ (x.shift + 1 + (y.shift - x.shift - 1)) := by rw [← hpow]
      _ = _ := by ring
  have hsignificand := Nat.eq_of_mul_eq_mul_right (Nat.two_pow_pos x.shift) hmagnitude
  have hle : y.significand * 2 ≤ y.significand * 2 * 2 ^ (y.shift - x.shift - 1) :=
    Nat.le_mul_of_pos_right _ (Nat.two_pow_pos _)
  omega

/-- A magnitude has one significand and one shift. -/
theorem eq_of_magnitude_eq (h : x.magnitude = y.magnitude) :
    x.significand = y.significand ∧ x.shift = y.shift := by
  have hshift : x.shift = y.shift :=
    Nat.le_antisymm (shift_le_of_magnitude_eq h.symm) (shift_le_of_magnitude_eq h)
  refine ⟨?_, hshift⟩
  have hmagnitude : x.significand * 2 ^ x.shift = y.significand * 2 ^ y.shift := h
  rw [← hshift] at hmagnitude
  exact Nat.eq_of_mul_eq_mul_right (Nat.two_pow_pos x.shift) hmagnitude

theorem natAbs_units (x : Binary64) : x.units.natAbs = x.magnitude := by
  unfold units
  split <;> omega

/-- Numbers of one value are the same, but for the two zeros. -/
theorem eq_of_units_eq (h : x.units = y.units) (hzero : x.units ≠ 0) : x = y := by
  have hmagnitude : x.magnitude = y.magnitude := by
    rw [← natAbs_units, ← natAbs_units, h]
  have hsign : x.negative = y.negative := by
    unfold units at h hzero
    cases hx : x.negative <;> cases hy : y.negative <;> simp [hx, hy] at h hzero ⊢ <;> omega
  obtain ⟨hsignificand, hshift⟩ := eq_of_magnitude_eq hmagnitude
  obtain ⟨negative, significand, shift, stored⟩ := x
  obtain ⟨negative', significand', shift', stored'⟩ := y
  cases hsign
  cases hsignificand
  cases hshift
  rfl

/-- The number is the integer `i` when this many ones make its units. -/
theorem toInt?_eq_some_iff {i : Int} : x.toInt? = some i ↔ x.units = i * unitsPerOne := by
  have hdvd : x.magnitude % unitsPerOne = 0 ↔ (unitsPerOne : Int) ∣ x.units := by
    rw [← natAbs_units, ← Nat.dvd_iff_mod_eq_zero, Int.natCast_dvd]
  unfold toInt?
  by_cases hmod : x.magnitude % unitsPerOne = 0
  · rw [if_pos hmod, Option.some.injEq]
    exact Int.ediv_eq_iff_eq_mul_left cast_unitsPerOne_pos.ne' (hdvd.1 hmod)
  · rw [if_neg hmod]
    constructor
    · intro h
      cases h
    · intro h
      exact absurd (hdvd.2 ⟨i, by rw [h, Int.mul_comm]⟩) hmod

end Binary64

namespace Number

/-- Integers of one exact value are the same. -/
theorem eq_of_exactUnits_int_eq {i j : WordInt}
    (h : exactUnits (.int i) = exactUnits (.int j)) : i = j := by
  have hvalue : i.value = j.value :=
    Int.eq_of_mul_eq_mul_right Binary64.cast_unitsPerOne_pos.ne' h
  obtain ⟨value, inRange⟩ := i
  obtain ⟨value', inRange'⟩ := j
  cases hvalue
  rfl

end Number

end SearchJoin
