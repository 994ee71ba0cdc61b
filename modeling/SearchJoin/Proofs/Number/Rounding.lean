import SearchJoin.Proofs.Number.Exact

/-!
# Rounding to binary64

A number is rounded to a nearest one among those with a short significand. Two facts follow from this
alone: rounding keeps the order of two values, though it may make them equal, and it leaves a binary64
number as it is.

Main statements: `Number.natAbs_sub_roundedUnits_le`, `Number.roundedUnits_mono`.
-/

namespace SearchJoin

/-- A size that a binary64 number can have, if its exponent is not bounded. -/
def ShortSignificand (size : Nat) : Prop :=
  ∃ significand shift, significand ≤ 2 ^ 53 ∧ size = significand * 2 ^ shift

theorem Binary64.shortSignificand_magnitude (x : Binary64) : ShortSignificand x.magnitude :=
  ⟨x.significand, x.shift, x.stored.1.le, rfl⟩

/-- Beyond full significands only whole multiples of a power of two have a short one. -/
theorem ShortSignificand.le_or_le {size : Nat} (h : ShortSignificand size) {quotient : Nat}
    (hfull : 2 ^ 52 ≤ quotient) (shift : Nat) :
    size ≤ quotient * 2 ^ shift ∨ (quotient + 1) * 2 ^ shift ≤ size := by
  obtain ⟨significand, own, hshort, rfl⟩ := h
  rcases Nat.lt_or_ge own shift with hlt | hge
  · refine .inl ?_
    calc significand * 2 ^ own ≤ 2 ^ 53 * 2 ^ own := Nat.mul_le_mul_right _ hshort
      _ = 2 ^ 52 * 2 ^ (own + 1) := by ring
      _ ≤ 2 ^ 52 * 2 ^ shift := Nat.mul_le_mul_left _ (Nat.pow_le_pow_right (by decide) hlt)
      _ ≤ quotient * 2 ^ shift := Nat.mul_le_mul_right _ hfull
  · have hmultiple : significand * 2 ^ own = significand * 2 ^ (own - shift) * 2 ^ shift := by
      rw [Nat.mul_assoc, ← Nat.pow_add, Nat.sub_add_cancel hge]
    rw [hmultiple]
    rcases Nat.lt_or_ge quotient (significand * 2 ^ (own - shift)) with hlt | hle
    · exact .inr (Nat.mul_le_mul_right _ hlt)
    · exact .inl (Nat.mul_le_mul_right _ hle)

/-! ## Rounding of natural numbers -/

/-- The rounded quotient is next to the quotient, on the side that is not farther. -/
theorem roundHalfEven_cases (num den : Nat) :
    roundHalfEven num den = num / den ∧ 2 * (num % den) ≤ den ∨
      roundHalfEven num den = num / den + 1 ∧ den ≤ 2 * (num % den) := by
  unfold roundHalfEven
  cases hcompare : compare (2 * (num % den)) den with
  | lt => exact .inl ⟨rfl, (Nat.compare_eq_lt.1 hcompare).le⟩
  | gt => exact .inr ⟨rfl, (Nat.compare_eq_gt.1 hcompare).le⟩
  | eq =>
    have heq := Nat.compare_eq_eq.1 hcompare
    by_cases heven : num / den % 2 = 0
    · exact .inl ⟨by simp [heven], heq.le⟩
    · exact .inr ⟨by simp [heven], heq.ge⟩

theorem lt_pow_excessBits (n : Nat) : n < 2 ^ 53 * 2 ^ excessBits n := by
  have hle : n.log2 + 1 ≤ 53 + excessBits n := by
    unfold excessBits
    omega
  rw [← Nat.pow_add]
  exact n.lt_log2_self.trans_le (Nat.pow_le_pow_right (by decide) hle)

theorem pow_excessBits_le {n : Nat} (h : 0 < excessBits n) : 2 ^ 52 * 2 ^ excessBits n ≤ n := by
  unfold excessBits at h ⊢
  have hne : n ≠ 0 := by
    rintro rfl
    simp at h
  rw [← Nat.pow_add, show 52 + (n.log2 - 52) = n.log2 by omega]
  exact Nat.log2_self_le hne

theorem roundTo53Bits_of_excessBits_eq_zero {n : Nat} (h : excessBits n = 0) :
    roundTo53Bits n = n := by
  have hone : Nat.pow 2 0 = 1 := rfl
  rcases roundHalfEven_cases n 1 with ⟨hround, -⟩ | ⟨-, hmod⟩
  · rw [roundTo53Bits, h, hone, hround, Nat.div_one, Nat.mul_one]
  · rw [Nat.mod_one] at hmod
    omega

theorem shortSignificand_roundTo53Bits (n : Nat) :
    ShortSignificand (roundTo53Bits n * Binary64.unitsPerOne) := by
  obtain ⟨places, hplaces⟩ := Binary64.exists_unitsPerOne_eq
  refine ⟨roundHalfEven n (2 ^ excessBits n), excessBits n + places, ?_, ?_⟩
  · have hlt : n / 2 ^ excessBits n < 2 ^ 53 :=
      (Nat.div_lt_iff_lt_mul (Nat.two_pow_pos _)).2 (lt_pow_excessBits n)
    rcases roundHalfEven_cases n (2 ^ excessBits n) with ⟨hround, -⟩ | ⟨hround, -⟩ <;> omega
  · rw [hplaces, Nat.pow_add, ← Nat.mul_assoc]
    rfl

/-- A number lies between two neighbours, `past` the lower one. Of all sizes that do not lie between
them the nearer neighbour is nearest to it. -/
theorem natAbs_sub_le_of_neighbour {below past step size rounded : Nat}
    (hside : size ≤ below ∨ below + step ≤ size) (hpast : past ≤ step)
    (hrounded : rounded = below ∧ 2 * past ≤ step ∨ rounded = below + step ∧ step ≤ 2 * past) :
    ((below + past : Nat) - (rounded : Nat) : Int).natAbs ≤
      ((below + past : Nat) - (size : Nat) : Int).natAbs := by
  omega

/-- Rounding leads to a nearest size with a short significand. -/
theorem natAbs_sub_roundTo53Bits_le (n : Nat) {size : Nat} (h : ShortSignificand size) :
    ((n * Binary64.unitsPerOne : Nat) - (roundTo53Bits n * Binary64.unitsPerOne : Nat) : Int).natAbs ≤
      ((n * Binary64.unitsPerOne : Nat) - (size : Nat) : Int).natAbs := by
  by_cases hexcess : excessBits n = 0
  · rw [roundTo53Bits_of_excessBits_eq_zero hexcess, Int.sub_self]
    exact Nat.zero_le _
  obtain ⟨places, hplaces⟩ := Binary64.exists_unitsPerOne_eq
  have hfull : 2 ^ 52 ≤ n / 2 ^ excessBits n :=
    (Nat.le_div_iff_mul_le (Nat.two_pow_pos _)).2 (pow_excessBits_le (Nat.pos_of_ne_zero hexcess))
  have hside := h.le_or_le hfull (excessBits n + places)
  have hstep : 2 ^ (excessBits n + places) = 2 ^ excessBits n * 2 ^ places := Nat.pow_add ..
  have hexact : n * 2 ^ places = n / 2 ^ excessBits n * 2 ^ (excessBits n + places) +
      n % 2 ^ excessBits n * 2 ^ places := by
    conv_lhs => rw [← Nat.div_add_mod n (2 ^ excessBits n)]
    ring
  have hrounded : roundTo53Bits n * 2 ^ places =
      roundHalfEven n (2 ^ excessBits n) * 2 ^ (excessBits n + places) := by
    rw [hstep, ← Nat.mul_assoc]
    rfl
  rw [hplaces, hexact, hrounded]
  refine natAbs_sub_le_of_neighbour (by rwa [Nat.add_one_mul] at hside) ?_ ?_
  · rw [hstep]
    exact Nat.mul_le_mul_right _ (Nat.mod_lt _ (Nat.two_pow_pos _)).le
  · rw [← Nat.mul_assoc, hstep]
    rcases roundHalfEven_cases n (2 ^ excessBits n) with ⟨hround, hhalf⟩ | ⟨hround, hhalf⟩
    · exact .inl ⟨by rw [hround], Nat.mul_le_mul_right _ hhalf⟩
    · exact .inr ⟨by rw [hround, Nat.add_one_mul], Nat.mul_le_mul_right _ hhalf⟩

/-! ## Rounding of numbers -/

namespace Number

/-- An integer is rounded by its size, whatever its sign. -/
theorem units_int (i : WordInt) :
    exactUnits (.int i) = (i.value.natAbs * Binary64.unitsPerOne : Nat) ∧
        roundedUnits (.int i) = (roundTo53Bits i.value.natAbs * Binary64.unitsPerOne : Nat) ∨
      exactUnits (.int i) = -(i.value.natAbs * Binary64.unitsPerOne : Nat) ∧
        roundedUnits (.int i) = -(roundTo53Bits i.value.natAbs * Binary64.unitsPerOne : Nat) := by
  unfold exactUnits roundedUnits
  dsimp only
  by_cases hnegative : i.value < 0
  · refine .inr ⟨?_, by rw [if_pos hnegative, Nat.cast_mul]⟩
    rw [Nat.cast_mul, Int.ofNat_natAbs_of_nonpos hnegative.le, Int.neg_mul, Int.neg_neg]
  · refine .inl ⟨?_, by rw [if_neg hnegative, Nat.cast_mul]⟩
    rw [Nat.cast_mul, Int.natAbs_of_nonneg (Int.not_lt.1 hnegative)]

theorem shortSignificand_roundedUnits (a : Number) : ShortSignificand a.roundedUnits.natAbs := by
  cases a with
  | float x =>
    rw [roundedUnits, Binary64.natAbs_units]
    exact x.shortSignificand_magnitude
  | int i =>
    rcases units_int i with ⟨-, hrounded⟩ | ⟨-, hrounded⟩
    · rw [hrounded, Int.natAbs_natCast]
      exact shortSignificand_roundTo53Bits _
    · rw [hrounded, Int.natAbs_neg, Int.natAbs_natCast]
      exact shortSignificand_roundTo53Bits _

/-- The rounded value is a nearest one to the exact value. -/
theorem natAbs_sub_roundedUnits_le (a : Number) {value : Int} (h : ShortSignificand value.natAbs) :
    (a.exactUnits - a.roundedUnits).natAbs ≤ (a.exactUnits - value).natAbs := by
  cases a with
  | float x =>
    rw [exactUnits, roundedUnits, Int.sub_self]
    exact Nat.zero_le _
  | int i =>
    have hnearest := natAbs_sub_roundTo53Bits_le i.value.natAbs h
    rcases units_int i with ⟨hexact, hrounded⟩ | ⟨hexact, hrounded⟩ <;>
      (rw [hexact, hrounded]; omega)

/-- A value that binary64 can hold is rounded to itself. -/
theorem roundedUnits_eq_of_shortSignificand {a : Number} (h : ShortSignificand a.exactUnits.natAbs) :
    a.roundedUnits = a.exactUnits := by
  have hnearest := a.natAbs_sub_roundedUnits_le h
  omega

theorem roundedUnits_eq_of_exactUnits_eq {a b : Number} (h : a.exactUnits = b.exactUnits) :
    a.roundedUnits = b.roundedUnits := by
  have hfloat : ∀ (x : Binary64) (c : Number), c.exactUnits = x.units → c.roundedUnits = x.units := by
    intro x c hc
    have hshort : ShortSignificand c.exactUnits.natAbs := by
      rw [hc, Binary64.natAbs_units]
      exact x.shortSignificand_magnitude
    rw [roundedUnits_eq_of_shortSignificand hshort, hc]
  cases b with
  | float y => exact hfloat y a h
  | int j =>
    cases a with
    | float x => exact (hfloat x (.int j) h.symm).symm
    | int i => rw [eq_of_exactUnits_int_eq h]

/-- Rounding keeps the order of two values, but may make them equal. -/
theorem roundedUnits_mono {a b : Number} (h : a.exactUnits ≤ b.exactUnits) :
    a.roundedUnits ≤ b.roundedUnits := by
  rcases Int.lt_or_eq_of_le h with hlt | heq
  · have ha := a.natAbs_sub_roundedUnits_le b.shortSignificand_roundedUnits
    have hb := b.natAbs_sub_roundedUnits_le a.shortSignificand_roundedUnits
    omega
  · exact (roundedUnits_eq_of_exactUnits_eq heq).le

end Number

end SearchJoin
