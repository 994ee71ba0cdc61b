import SearchJoin.Text.Digits
import Mathlib.Algebra.Group.Nat.Defs

/-!
# Digits read back

The decimal digits of a number denote the number. They are digits, at least one of them, and the first of several
is not zero.

Main statements: `natural?_decimalDigits`, `word?_decimalDigits`.
-/

namespace SearchJoin.Text

variable {n : Nat} {digits digits' : List Char}

theorem isDigit_of_mem_decimalDigits {c : Char} (h : c ∈ decimalDigits n) : c.isDigit = true :=
  Nat.isDigit_of_mem_toDigits (by decide) (by decide) h

theorem decimalDigits_ne_nil (n : Nat) : decimalDigits n ≠ [] := Nat.toDigits_ne_nil

/-! ## The number that digits denote -/

theorem ofDecimalDigits_decimalDigits (n : Nat) : ofDecimalDigits (decimalDigits n) = n :=
  Nat.ofDigitChars_ten_toDigits

/-- The digits before others count as many tens as there are others. -/
theorem ofDecimalDigits_append (digits digits' : List Char) :
    ofDecimalDigits (digits ++ digits') =
      10 ^ digits'.length * ofDecimalDigits digits + ofDecimalDigits digits' := by
  show Nat.ofDigitChars 10 (digits ++ digits') 0 = _
  rw [Nat.ofDigitChars_append, Nat.ofDigitChars_eq_ofDigitChars_zero]
  rfl

theorem ofDecimalDigits_replicate_zero (count : Nat) : ofDecimalDigits (List.replicate count '0') = 0 := by
  show Nat.ofDigitChars 10 (List.replicate count '0') 0 = 0
  rw [Nat.ofDigitChars_replicate_zero, Nat.mul_zero]

theorem natural?_of_digits (hne : digits ≠ []) (hdigits : ∀ c ∈ digits, c.isDigit = true) :
    natural? digits = some (ofDecimalDigits digits) := by
  rw [natural?, if_pos ⟨hne, List.all_eq_true.2 hdigits⟩]

theorem natural?_decimalDigits (n : Nat) : natural? (decimalDigits n) = some n := by
  have hdigits : ∀ c ∈ decimalDigits n, c.isDigit = true := fun _ => isDigit_of_mem_decimalDigits
  rw [natural?_of_digits (decimalDigits_ne_nil n) hdigits, ofDecimalDigits_decimalDigits]

theorem word?_decimalDigits (n : UInt64) : word? (decimalDigits n.toNat) = some n := by
  obtain ⟨c, rest, hcons⟩ := List.exists_cons_of_ne_nil (decimalDigits_ne_nil n.toNat)
  have hc : c.isDigit = true := by
    refine isDigit_of_mem_decimalDigits (n := n.toNat) ?_
    rw [hcons]
    exact List.mem_cons_self
  have hplus : c ≠ '+' := by
    rintro rfl
    exact absurd hc (by decide)
  have hnatural := natural?_decimalDigits n.toNat
  unfold word?
  rw [hcons] at hnatural ⊢
  split
  · next heq => exact absurd (List.cons.inj heq).1 hplus
  · have hlt : n.toNat < 0x10000000000000000 := n.toNat_lt
    dsimp only
    rw [hnatural, Option.bind_some, if_pos hlt, UInt64.ofNat_toNat]

/-! ## The first digit -/

theorem digitChar_ne_zero (hpos : 0 < n) (hlt : n < 10) : Nat.digitChar n ≠ '0' := by
  intro h
  have hvalue := Nat.toNat_digitChar_sub_48_of_lt_ten hlt
  rw [h] at hvalue
  have hzero : n = 0 := hvalue.symm
  omega

/-- A number that is not zero does not start with a zero. -/
theorem head?_decimalDigits (hpos : 0 < n) : (decimalDigits n).head? ≠ some '0' := by
  induction n using Nat.strongRecOn with
  | ind n ih =>
    unfold decimalDigits
    by_cases hlt : n < 10
    · rw [Nat.toDigits_of_lt_base hlt, List.head?_cons]
      exact mt Option.some.inj (digitChar_ne_zero hpos hlt)
    · have hhead := ih (n / 10) (by omega) (by omega)
      obtain ⟨c, rest, hcons⟩ := List.exists_cons_of_ne_nil (decimalDigits_ne_nil (n / 10))
      unfold decimalDigits at hhead hcons
      rw [hcons] at hhead
      rw [Nat.toDigits_of_base_le (by decide) (by omega), hcons]
      exact hhead

theorem decimalDigits_zero : decimalDigits 0 = ['0'] := rfl

/-- Of several digits the first is not zero. -/
theorem head?_decimalDigits_of_length (h : 1 < (decimalDigits n).length) :
    (decimalDigits n).head? ≠ some '0' := by
  refine head?_decimalDigits (Nat.pos_of_ne_zero ?_)
  rintro rfl
  rw [decimalDigits_zero] at h
  exact absurd h (by decide)

end SearchJoin.Text
