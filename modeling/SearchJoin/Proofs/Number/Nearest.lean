import SearchJoin.Number.Decimal
import SearchJoin.Proofs.Number.Rounding

/-!
# Reading decimals as binary64

What a decimal is read as depends on its value alone, however many zeros stand at its end. The decimal that a
number is written as is read as the number, also where no short decimal has been found.

Main statements: `Decimal.toBinary64?_eq_nearest?`, `Binary64.toBinary64?_shortest`.
-/

namespace SearchJoin

variable {negative : Bool} {num den k : Nat}

/-! ## The nearest number -/

theorem compare_mul_right (hk : 0 < k) (m n : Nat) : compare (m * k) (n * k) = compare m n := by
  rcases Nat.lt_trichotomy m n with h | h | h
  · rw [Nat.compare_eq_lt.2 h, Nat.compare_eq_lt.2 (Nat.mul_lt_mul_of_pos_right h hk)]
  · rw [h, Nat.compare_eq_eq.2 rfl, Nat.compare_eq_eq.2 rfl]
  · rw [Nat.compare_eq_gt.2 h, Nat.compare_eq_gt.2 (Nat.mul_lt_mul_of_pos_right h hk)]

/-- The quotient goes by the ratio. -/
theorem roundHalfEven_mul_right (hk : 0 < k) (num den : Nat) :
    roundHalfEven (num * k) (den * k) = roundHalfEven num den := by
  unfold roundHalfEven
  rw [Nat.mul_div_mul_right _ _ hk, Nat.mul_mod_mul_right, ← Nat.mul_assoc, compare_mul_right hk]

theorem roundHalfEven_one (n : Nat) : roundHalfEven n 1 = n := by
  rcases roundHalfEven_cases n 1 with ⟨hround, -⟩ | ⟨-, hmod⟩
  · rw [hround, Nat.div_one]
  · rw [Nat.mod_one] at hmod
    omega

theorem roundHalfEven_of_lt_half (h : 2 * num < den) : roundHalfEven num den = 0 := by
  have hmod : num % den = num := Nat.mod_eq_of_lt (by omega)
  rcases roundHalfEven_cases num den with ⟨hround, -⟩ | ⟨-, hhalf⟩
  · rw [hround, Nat.div_eq_of_lt (by omega)]
  · omega

namespace Binary64

variable {x : Binary64}

/-- The nearest number goes by the ratio. -/
theorem nearest?_mul_right (hk : 0 < k) (num den : Nat) :
    nearest? negative (num * k) (den * k) = nearest? negative num den := by
  have hshift : ∀ places, den * k * Nat.pow 2 places = den * Nat.pow 2 places * k := by
    intro places
    rw [Nat.mul_right_comm]
  unfold nearest?
  dsimp only
  rw [Nat.mul_div_mul_right _ _ hk, hshift, roundHalfEven_mul_right hk]

theorem ofParts?_eq_none {significand shift : Nat} (h : 2045 < shift) :
    ofParts? negative significand shift = none := by
  refine dif_neg ?_
  rintro ⟨-, hshift, -⟩
  omega

/-- Beyond all numbers there is no nearest one. -/
theorem nearest?_eq_none {places : Nat} (hplaces : 2097 < places) (h : 2 ^ places ≤ num / den) :
    nearest? negative num den = none := by
  have hne : num / den ≠ 0 := (Nat.lt_of_lt_of_le (Nat.two_pow_pos places) h).ne'
  have hlog : places ≤ (num / den).log2 := (Nat.le_log2 hne).2 h
  have hshift : 2045 < excessBits (num / den) := by
    unfold excessBits
    omega
  unfold nearest?
  dsimp only
  rw [ofParts?_eq_none hshift, ofParts?_eq_none (by omega), ite_self]

/-- Less than half a unit is rounded to zero. -/
theorem nearest?_eq_zero (h : 2 * num < den) : nearest? negative num den = some (zero negative) := by
  have hdiv : num / den = 0 := Nat.div_eq_of_lt (by omega)
  have hshift : den * Nat.pow 2 (excessBits 0) = den := Nat.mul_one den
  unfold nearest?
  dsimp only
  rw [hdiv, hshift, roundHalfEven_of_lt_half h]
  rfl

theorem excessBits_magnitude (x : Binary64) : excessBits x.magnitude = x.shift := by
  have hshort : x.significand < 2 ^ 53 := x.stored.1
  unfold excessBits
  rcases x.stored.2.2 with hfull | hshift
  · have hlow : 2 ^ (52 + x.shift) ≤ x.magnitude := by
      rw [Nat.pow_add]
      exact Nat.mul_le_mul_right _ hfull
    have hhigh : x.magnitude < 2 ^ (52 + x.shift + 1) := by
      rw [show 52 + x.shift + 1 = 53 + x.shift by omega, Nat.pow_add]
      exact Nat.mul_lt_mul_of_pos_right hshort (Nat.two_pow_pos _)
    have hne : x.magnitude ≠ 0 := (Nat.lt_of_lt_of_le (Nat.two_pow_pos _) hlow).ne'
    rw [(Nat.log2_eq_iff hne).2 ⟨hlow, hhigh⟩]
    omega
  · have hmagnitude : x.magnitude = x.significand := by
      show x.significand * 2 ^ x.shift = _
      rw [hshift, Nat.pow_zero, Nat.mul_one]
    rw [hmagnitude, hshift]
    by_cases hzero : x.significand = 0
    · rw [hzero, Nat.log2_zero]
    · have hlog := (Nat.log2_lt hzero).2 hshort
      omega

/-- A number is the nearest one to its own value. -/
theorem nearest?_magnitude (x : Binary64) (hden : 0 < den) :
    nearest? x.negative (x.magnitude * den) den = some x := by
  have hround : roundHalfEven x.magnitude (1 * Nat.pow 2 x.shift) = x.significand := by
    show roundHalfEven (x.significand * 2 ^ x.shift) (1 * 2 ^ x.shift) = _
    rw [roundHalfEven_mul_right (Nat.two_pow_pos _), roundHalfEven_one]
  have hscaled : nearest? x.negative (x.magnitude * den) (1 * den) = nearest? x.negative x.magnitude 1 :=
    nearest?_mul_right hden x.magnitude 1
  rw [Nat.one_mul] at hscaled
  rw [hscaled]
  unfold nearest?
  dsimp only
  rw [Nat.div_one, excessBits_magnitude, hround]
  rw [if_pos x.stored.1]
  exact dif_pos x.stored

end Binary64

/-! ## Decimals -/

theorem Binary64.exists_places : ∃ places, places = 1074 ∧ Binary64.unitsPerOne = 2 ^ places := by
  unfold Binary64.unitsPerOne
  -- The power is far too large to be evaluated.
  generalize hplaces : 1074 = places
  exact ⟨places, rfl, rfl⟩

namespace Decimal

variable {digits fuel : Nat} {exponent : Int}

/-- Powers of ten are beyond powers of eight. -/
theorem two_pow_le_ten_pow (n : Nat) : 2 ^ (3 * n) ≤ 10 ^ n := by
  rw [Nat.pow_mul]
  exact Nat.pow_le_pow_left (by decide) n

/-- Beyond the greatest power of ten that is tried there is no binary64 number. -/
theorem nearest?_of_large (hdigits : digits ≠ 0) (hlarge : 400 < exponent) :
    Binary64.nearest? negative ((ratio digits exponent).1 * Binary64.unitsPerOne)
      (ratio digits exponent).2 = none := by
  obtain ⟨n, rfl⟩ := Int.eq_ofNat_of_zero_le (show 0 ≤ exponent by omega)
  have hn : 400 < n := by omega
  obtain ⟨places, hplaces, hunits⟩ := Binary64.exists_places
  show Binary64.nearest? negative (digits * 10 ^ n * Binary64.unitsPerOne) 1 = none
  have hpow : 2 ^ (3 * n + places) ≤ digits * 10 ^ n * Binary64.unitsPerOne := by
    calc 2 ^ (3 * n + places) = 2 ^ (3 * n) * 2 ^ places := Nat.pow_add ..
      _ = 2 ^ (3 * n) * Binary64.unitsPerOne := by rw [hunits]
      _ ≤ 10 ^ n * Binary64.unitsPerOne := Nat.mul_le_mul_right _ (two_pow_le_ten_pow n)
      _ ≤ digits * 10 ^ n * Binary64.unitsPerOne :=
        Nat.mul_le_mul_right _ (Nat.le_mul_of_pos_left _ (Nat.pos_of_ne_zero hdigits))
  rw [← Nat.div_one (digits * 10 ^ n * Binary64.unitsPerOne)] at hpow
  exact Binary64.nearest?_eq_none (by omega) hpow

/-- Below the least power of ten that is tried the nearest number is zero. -/
theorem nearest?_of_small (hsmall : exponent + (digits.log2 : Int) < -400) :
    Binary64.nearest? negative ((ratio digits exponent).1 * Binary64.unitsPerOne)
      (ratio digits exponent).2 = some (.zero negative) := by
  obtain ⟨n, rfl⟩ : ∃ n, exponent = Int.negSucc n := by
    cases exponent with
    | ofNat n =>
      have hnonneg : (0 : Int) ≤ Int.ofNat n := Int.natCast_nonneg n
      omega
    | negSucc n => exact ⟨n, rfl⟩
  show Binary64.nearest? negative (digits * Binary64.unitsPerOne) (10 ^ (n + 1)) = _
  have hlog : digits.log2 + 1 ≤ n - 399 := by omega
  have hn : 400 ≤ n := by omega
  obtain ⟨places, hplaces, hunits⟩ := Binary64.exists_places
  refine Binary64.nearest?_eq_zero ?_
  calc 2 * (digits * Binary64.unitsPerOne)
      < 2 * (2 ^ (n - 399) * Binary64.unitsPerOne) := by
        refine Nat.mul_lt_mul_of_pos_left ?_ (by decide)
        refine Nat.mul_lt_mul_of_pos_right ?_ Binary64.unitsPerOne_pos
        exact digits.lt_log2_self.trans_le (Nat.pow_le_pow_right (by decide) hlog)
    _ = 2 ^ (1 + (n - 399 + places)) := by
        rw [hunits, Nat.pow_add 2 1, Nat.pow_add, Nat.pow_one]
    _ ≤ 2 ^ (3 * (n + 1)) := Nat.pow_le_pow_right (by decide) (by omega)
    _ ≤ 10 ^ (n + 1) := two_pow_le_ten_pow (n + 1)

theorem ratio_zero (exponent : Int) : (ratio 0 exponent).1 = 0 ∧ 0 < (ratio 0 exponent).2 := by
  cases exponent with
  | ofNat n => exact ⟨Nat.zero_mul _, Nat.one_pos⟩
  | negSucc n => exact ⟨rfl, Nat.pow_pos (by decide)⟩

/-- A decimal is read as the number nearest to its value. The bounds on its exponent only spare the powers. -/
theorem toBinary64?_eq_nearest? (negative : Bool) (digits : Nat) (exponent : Int) :
    toBinary64? ⟨negative, digits, exponent⟩ =
      Binary64.nearest? negative ((ratio digits exponent).1 * Binary64.unitsPerOne) (ratio digits exponent).2 := by
  unfold toBinary64?
  dsimp only
  by_cases hdigits : digits = 0
  · subst hdigits
    obtain ⟨hnum, hden⟩ := ratio_zero exponent
    rw [if_pos rfl, hnum, Nat.zero_mul, Binary64.nearest?_eq_zero (by omega)]
  rw [if_neg hdigits]
  by_cases hlarge : 400 < exponent
  · rw [if_pos hlarge, nearest?_of_large hdigits hlarge]
  rw [if_neg hlarge]
  by_cases hsmall : exponent + (digits.log2 : Int) < -400
  · rw [if_pos hsmall, nearest?_of_small hsmall]
  · rw [if_neg hsmall]

theorem toBinary64?_of_zero {d : Decimal} (h : d.digits = 0) : d.toBinary64? = some (.zero d.negative) := if_pos h

/-- A zero at the end of the digits makes no difference when the exponent accounts for it. -/
theorem toBinary64?_tenfold (negative : Bool) (digits : Nat) (exponent : Int) :
    toBinary64? ⟨negative, digits * 10, exponent - 1⟩ = toBinary64? ⟨negative, digits, exponent⟩ := by
  rw [toBinary64?_eq_nearest?, toBinary64?_eq_nearest?]
  generalize Binary64.unitsPerOne = units
  cases exponent with
  | ofNat n =>
    cases n with
    | zero =>
      show Binary64.nearest? negative (digits * 10 * units) (1 * 10) =
        Binary64.nearest? negative (digits * 1 * units) 1
      rw [Nat.mul_right_comm, Binary64.nearest?_mul_right (by decide), Nat.mul_one]
    | succ n =>
      have hexponent : Int.ofNat (n + 1) - 1 = Int.ofNat n := Int.add_sub_cancel n 1
      rw [hexponent]
      show Binary64.nearest? negative (digits * 10 * 10 ^ n * units) 1 =
        Binary64.nearest? negative (digits * 10 ^ (n + 1) * units) 1
      rw [Nat.pow_succ', ← Nat.mul_assoc]
  | negSucc n =>
    show Binary64.nearest? negative (digits * 10 * units) (10 ^ (n + 1 + 1)) =
      Binary64.nearest? negative (digits * units) (10 ^ (n + 1))
    rw [Nat.mul_right_comm, Nat.pow_succ 10 (n + 1), Binary64.nearest?_mul_right (by decide)]

theorem toBinary64?_mul_pow (negative : Bool) (digits : Nat) (exponent : Int) (zeros : Nat) :
    toBinary64? ⟨negative, digits * 10 ^ zeros, exponent - zeros⟩ = toBinary64? ⟨negative, digits, exponent⟩ := by
  induction zeros with
  | zero => rw [Nat.pow_zero, Nat.mul_one, Int.natCast_zero, Int.sub_zero]
  | succ zeros ih =>
    rw [Nat.pow_succ, ← Nat.mul_assoc, Int.natCast_add, Int.natCast_one, ← Int.sub_sub, toBinary64?_tenfold, ih]

theorem toBinary64?_trimZeros (negative : Bool) (digits : Nat) (exponent : Int) (fuel : Nat) :
    toBinary64? ⟨negative, (trimZeros digits exponent fuel).1, (trimZeros digits exponent fuel).2⟩ =
      toBinary64? ⟨negative, digits, exponent⟩ := by
  induction fuel generalizing digits exponent with
  | zero => rfl
  | succ fuel ih =>
    unfold trimZeros
    split
    · next hzero =>
      rw [ih]
      have htenfold := toBinary64?_tenfold negative (digits / 10) (exponent + 1)
      rw [Nat.div_mul_cancel (Nat.dvd_of_mod_eq_zero hzero.2), Int.add_sub_cancel] at htenfold
      exact htenfold.symm
    · rfl

end Decimal

/-! ## The decimal that a number is written as -/

namespace Binary64

variable {x : Binary64} {digits count : Nat} {exponent : Int}

theorem readsBack_iff : x.readsBack digits exponent = true ↔
    Decimal.toBinary64? ⟨x.negative, digits, exponent⟩ = some x := decide_eq_true_iff

/-- Of the two neighbours on a grid only one that reads back is taken. -/
theorem readsBack_of_onGrid? (h : x.onGrid? exponent = some digits) : x.readsBack digits exponent = true := by
  unfold onGrid? at h
  dsimp only at h
  split at h
  · next hbelow habove =>
    cases h
    rcases roundHalfEven_cases _ _ with ⟨hround, -⟩ | ⟨hround, -⟩
    · rw [hround]
      exact hbelow
    · rw [hround]
      exact habove
  · next hbelow _ =>
    cases h
    exact hbelow
  · next _ habove =>
    cases h
    exact habove
  · cases h

theorem readsBack_of_coarsestGrid? {found : Nat × Int} (h : x.coarsestGrid? exponent count = some found) :
    x.readsBack found.1 found.2 = true := by
  induction count generalizing exponent with
  | zero => cases h
  | succ count ih =>
    unfold coarsestGrid? at h
    split at h
    · next hgrid =>
      cases h
      exact readsBack_of_onGrid? hgrid
    · exact ih h

/-- The exact expansion reads back. -/
theorem readsBack_exact (x : Binary64) : x.readsBack (x.magnitude * Nat.pow 5 1074) (-1074) = true := by
  rw [readsBack_iff, Decimal.toBinary64?_eq_nearest?]
  unfold unitsPerOne
  generalize hplaces : 1074 = places
  obtain ⟨n, rfl⟩ : ∃ n, places = n + 1 := ⟨1073, hplaces.symm⟩
  have hexponent : (-1074 : Int) = Int.negSucc n := by omega
  have htens : x.magnitude * 5 ^ (n + 1) * 2 ^ (n + 1) = x.magnitude * 10 ^ (n + 1) := by
    rw [Nat.mul_assoc, ← Nat.mul_pow]
  rw [hexponent]
  show nearest? x.negative (x.magnitude * 5 ^ (n + 1) * 2 ^ (n + 1)) (10 ^ (n + 1)) = some x
  rw [htens, x.nearest?_magnitude (Nat.pow_pos (by decide))]

theorem eq_zero_of_magnitude_eq_zero (h : x.magnitude = 0) : x = zero x.negative := by
  have hsignificand : x.significand = 0 := (Nat.mul_eq_zero.1 h).resolve_right (Nat.two_pow_pos _).ne'
  have hshift : x.shift = 0 := by
    have hfull := x.stored.2.2
    omega
  obtain ⟨negative, significand, shift, stored⟩ := x
  cases hsignificand
  cases hshift
  rfl

/-- A number is written as a decimal that is read as the number. -/
theorem toBinary64?_shortest (x : Binary64) : x.shortest.toBinary64? = some x := by
  unfold shortest
  by_cases hzero : x.magnitude = 0
  · rw [if_pos hzero]
    show some (zero x.negative) = some x
    rw [← eq_zero_of_magnitude_eq_zero hzero]
  rw [if_neg hzero]
  have hread : ∀ found, found = (x.coarsestGrid? x.leadingPower 17).getD (x.magnitude * Nat.pow 5 1074, -1074) →
      x.readsBack found.1 found.2 = true := by
    rintro found rfl
    cases hgrid : x.coarsestGrid? x.leadingPower 17 with
    | none =>
      rw [Option.getD_none]
      exact x.readsBack_exact
    | some found => exact readsBack_of_coarsestGrid? hgrid
  -- Nothing of the search and of the powers is to be evaluated.
  generalize (x.coarsestGrid? x.leadingPower 17).getD (x.magnitude * Nat.pow 5 1074, -1074) = found at hread ⊢
  obtain ⟨digits, exponent⟩ := found
  dsimp only
  rw [Decimal.toBinary64?_trimZeros, ← readsBack_iff]
  exact hread _ rfl

end Binary64

end SearchJoin
