import SearchJoin.Join.Key
import SearchJoin.Proofs.Number.Exact

/-!
# What a key part says of a value

The part of a number has the number's exact value. The one thing it has beside the value is whether the
number is an integer that only an unsigned word holds: from `2 ^ 63` on, an integer and the binary64
number that equals it have two parts. Below, two values have one part when they are equal.

Main statements: `exists_part_iff_exactly`, `exists_parts_eq_iff`.
-/

namespace SearchJoin

namespace Number

/-- The number is written as an integer, and only an unsigned word holds it. -/
def isUnsigned : Number → Bool
  | .int i => !i.isSigned
  | .float _ => false

theorem isUnsigned_int_eq_false {i : WordInt} : isUnsigned (.int i) = false ↔ i.isSigned = true := by
  simp [isUnsigned]

/-- Below `2 ^ 63` no integer needs an unsigned word. -/
theorem isUnsigned_eq_false {n : Number}
    (h : n.exactUnits < 0x8000000000000000 * Binary64.unitsPerOne) : n.isUnsigned = false := by
  cases n with
  | float x => rfl
  | int i =>
    have hlt : i.value < 0x8000000000000000 :=
      Int.lt_of_mul_lt_mul_right h Binary64.cast_unitsPerOne_pos.le
    exact isUnsigned_int_eq_false.2 (decide_eq_true hlt)

end Number

namespace Value

/-- Two scalars are equal, numbers by their exact value. -/
def exactly (a b : Value) : Bool :=
  match a.json, b.json with
  | .bool a, .bool b => a == b
  | .str a, .str b => a == b
  | .num a, .num b => a.exactUnits == b.exactUnits
  | _, _ => false

theorem exactly_comm (a b : Value) : a.exactly b = b.exactly a := by
  obtain ⟨json, normal⟩ := a
  obtain ⟨json', normal'⟩ := b
  cases json <;> cases json' <;> simp [exactly, Bool.beq_comm]

theorem exactly_trans {a b c : Value} (hab : a.exactly b = true) (hbc : b.exactly c = true) :
    a.exactly c = true := by
  obtain ⟨json, normal⟩ := a
  obtain ⟨json', normal'⟩ := b
  obtain ⟨json'', normal''⟩ := c
  cases json <;> cases json' <;> simp [exactly] at hab
  all_goals cases json'' <;> simp_all [exactly]

/-- The value is no number of `2 ^ 63` or more. -/
def belowSignedLimit (v : Value) : Bool :=
  match v.json with
  | .num n => n.exactUnits < 0x8000000000000000 * Binary64.unitsPerOne
  | _ => true

/-- The value is a number written as an integer that only an unsigned word holds. -/
def isUnsigned (v : Value) : Bool :=
  match v.json with
  | .num n => n.isUnsigned
  | _ => false

theorem isScalar_of_exactly {a b : Value} (h : a.exactly b = true) :
    a.isScalar = true ∧ b.isScalar = true := by
  obtain ⟨json, normal⟩ := a
  obtain ⟨json', normal'⟩ := b
  cases json <;> cases json' <;> simp [exactly] at h <;> exact ⟨rfl, rfl⟩

/-- Of two equal values below `2 ^ 63` neither needs an unsigned word. -/
theorem isUnsigned_eq_of_exactly {a b : Value} (ha : a.belowSignedLimit = true)
    (h : a.exactly b = true) : a.isUnsigned = b.isUnsigned := by
  obtain ⟨json, normal⟩ := a
  obtain ⟨json', normal'⟩ := b
  cases json <;> cases json' <;> simp [exactly] at h
  case bool.bool => rfl
  case str.str => rfl
  case num.num x y =>
    have hx := of_decide_eq_true ha
    exact (Number.isUnsigned_eq_false hx).trans (Number.isUnsigned_eq_false (h ▸ hx)).symm

end Value

namespace KeyPart

/-- The part of a number keeps its exact value, and whether it needs an unsigned word. -/
theorem exists_toValue_ofNumber (n : Number) :
    ∃ m, (ofNumber n).toValue = .num m ∧ m.exactUnits = n.exactUnits ∧
      m.isUnsigned = n.isUnsigned := by
  cases n with
  | int i => exact ⟨.int i, rfl, rfl, rfl⟩
  | float x =>
    cases hword : (x.toInt?.bind WordInt.ofInt?).filter WordInt.isSigned with
    | none => exact ⟨.float x, by simp only [ofNumber, hword, toValue], rfl, rfl⟩
    | some i =>
      obtain ⟨hbind, hsigned⟩ := Option.filter_eq_some_iff.1 hword
      refine ⟨.int i, by simp only [ofNumber, hword, toValue], ?_,
        Number.isUnsigned_int_eq_false.2 hsigned⟩
      obtain ⟨k, hk, hi⟩ := Option.bind_eq_some_iff.1 hbind
      have hvalue : i.value = k := by
        unfold WordInt.ofInt? at hi
        split at hi
        · cases hi; rfl
        · cases hi
      rw [Number.exactUnits, Number.exactUnits, Binary64.toInt?_eq_some_iff.1 hk, hvalue]

/-- A number that is a signed machine integer has this integer as its part. -/
theorem ofNumber_eq_int {n : Number} {i : WordInt} (hsigned : i.isSigned = true)
    (h : n.exactUnits = i.value * Binary64.unitsPerOne) : ofNumber n = .int i := by
  cases n with
  | int j => rw [Number.eq_of_exactUnits_int_eq (j := i) h, ofNumber]
  | float x =>
    have hword : WordInt.ofInt? i.value = some i := by
      unfold WordInt.ofInt?
      rw [dif_pos i.inRange]
    simp only [ofNumber, Binary64.toInt?_eq_some_iff.2 h, Option.bind_some, hword, Option.filter,
      hsigned, if_true]

/-- Binary64 numbers of one exact value have one part. -/
theorem ofNumber_float_eq {x y : Binary64} (h : x.units = y.units) :
    ofNumber (.float x) = ofNumber (.float y) := by
  -- The two zeros differ as numbers, and both are the integer zero.
  by_cases hzero : x.units = 0
  · have hpart : ∀ z : Binary64, z.units = 0 → ofNumber (.float z) = .int ⟨0, by decide⟩ := by
      intro z hz
      exact ofNumber_eq_int rfl (by rw [Number.exactUnits, hz, Int.zero_mul])
    rw [hpart x hzero, hpart y (h.symm.trans hzero)]
  · rw [Binary64.eq_of_units_eq h hzero]

/-- Numbers of one exact value have one part, if both or neither of them need an unsigned word. -/
theorem ofNumber_eq_of_exactUnits_eq {x y : Number} (h : x.exactUnits = y.exactUnits)
    (hunsigned : x.isUnsigned = y.isUnsigned) : ofNumber x = ofNumber y := by
  cases x with
  | int i =>
    cases y with
    | int j => rw [Number.eq_of_exactUnits_int_eq h]
    | float y =>
      exact (ofNumber_eq_int (Number.isUnsigned_int_eq_false.1 hunsigned) h.symm).symm
  | float x =>
    cases y with
    | int j => exact ofNumber_eq_int (Number.isUnsigned_int_eq_false.1 hunsigned.symm) h
    | float y => exact ofNumber_float_eq h

variable {a b v : Value} {part other : KeyPart}

/-- A value equals what its part stands for. -/
theorem exactly_toValue {v : Value} {part : KeyPart} (h : ofValue? v = some part) :
    v.exactly part.toValue = true := by
  obtain ⟨json, normal⟩ := v
  cases json with
  | bool b => cases h; simp [Value.exactly, toValue, Value.bool]
  | str s => cases h; simp [Value.exactly, toValue, Value.str]
  | num n =>
    cases h
    obtain ⟨m, hm, hunits, -⟩ := exists_toValue_ofNumber n
    simp [Value.exactly, hm, Value.num, hunits]
  | null => cases h
  | arr items => cases h
  | obj fields => cases h

theorem isUnsigned_toValue (h : ofValue? v = some part) : part.toValue.isUnsigned = v.isUnsigned := by
  obtain ⟨json, normal⟩ := v
  cases json with
  | bool b => cases h; rfl
  | str s => cases h; rfl
  | num n =>
    cases h
    obtain ⟨m, hm, -, hunsigned⟩ := exists_toValue_ofNumber n
    rw [hm]
    exact hunsigned
  | null => cases h
  | arr items => cases h
  | obj fields => cases h

theorem exists_ofValue? (h : v.isScalar = true) : ∃ part, ofValue? v = some part := by
  obtain ⟨json, normal⟩ := v
  cases json <;> first | exact ⟨_, rfl⟩ | cases h

/-- Two parts are the same when the values are equal, and both or neither of them need an unsigned
word. -/
theorem eq_iff_exactly (ha : ofValue? a = some part) (hb : ofValue? b = some other) :
    part = other ↔ a.exactly b = true ∧ a.isUnsigned = b.isUnsigned := by
  constructor
  · rintro rfl
    refine ⟨Value.exactly_trans (exactly_toValue ha) ?_, ?_⟩
    · rw [Value.exactly_comm]
      exact exactly_toValue hb
    · rw [← isUnsigned_toValue ha, isUnsigned_toValue hb]
  · rintro ⟨hexactly, hunsigned⟩
    obtain ⟨json, normal⟩ := a
    obtain ⟨json', normal'⟩ := b
    cases json <;> cases json' <;> simp [Value.exactly] at hexactly
    case bool.bool => cases ha; cases hb; rw [hexactly]
    case str.str => cases ha; cases hb; rw [hexactly]
    case num.num => cases ha; cases hb; exact ofNumber_eq_of_exactUnits_eq hexactly hunsigned

/-- Two values have one part when they are equal, if the first is no number of `2 ^ 63` or more. -/
theorem exists_part_iff_exactly {a b : Value} (ha : a.belowSignedLimit = true) :
    (∃ part, ofValue? a = some part ∧ ofValue? b = some part) ↔ a.exactly b = true := by
  constructor
  · rintro ⟨part, hpart, hpart'⟩
    exact ((eq_iff_exactly hpart hpart').1 rfl).1
  · intro h
    obtain ⟨hscalar, hscalar'⟩ := Value.isScalar_of_exactly h
    obtain ⟨part, hpart⟩ := exists_ofValue? hscalar
    obtain ⟨other, hother⟩ := exists_ofValue? hscalar'
    have hsame := (eq_iff_exactly hpart hother).2 ⟨h, Value.isUnsigned_eq_of_exactly ha h⟩
    exact ⟨part, hpart, hsame ▸ hother⟩

/-- Every scalar has a part. Two scalars have the same part when they are equal, numbers by their exact
value, and both or neither of them are integers that need an unsigned word. -/
theorem exists_parts_eq_iff {a b : Value} (ha : a.isScalar = true) (hb : b.isScalar = true) :
    ∃ part other, ofValue? a = some part ∧ ofValue? b = some other ∧
      (part = other ↔ a.exactly b = true ∧ a.isUnsigned = b.isUnsigned) := by
  obtain ⟨part, hpart⟩ := exists_ofValue? ha
  obtain ⟨other, hother⟩ := exists_ofValue? hb
  exact ⟨part, other, hpart, hother, eq_iff_exactly hpart hother⟩

namespace Sample

/-- One, written as an integer and with a point. -/
def one : Value := .num (.int ⟨1, by decide⟩)

@[inherit_doc one]
def onePointZero : Value := .num (.float ⟨false, 0x10000000000000, 1022, by decide⟩)

/-- `2 ^ 63`, written as an integer and with a point. -/
def limit : Value := .num (.int ⟨0x8000000000000000, by decide⟩)

@[inherit_doc limit]
def limitPointZero : Value := .num (.float ⟨false, 0x10000000000000, 1085, by decide⟩)

end Sample

open Sample in
/-- Both spellings of one have the same part. -/
theorem exists_parts_eq_iff_sample :
    one.isScalar = true ∧ onePointZero.isScalar = true ∧
      ∃ part, ofValue? one = some part ∧ ofValue? onePointZero = some part := by
  refine ⟨rfl, rfl, ?_⟩
  obtain ⟨part, other, hpart, hother, hiff⟩ :=
    exists_parts_eq_iff (a := one) (b := onePointZero) rfl rfl
  have hsame : part = other := hiff.2 (by decide +kernel)
  exact ⟨part, hpart, hsame ▸ hother⟩

open Sample in
/-- The spellings of `2 ^ 63` are equal and have different parts. -/
theorem parts_ne_of_exactly :
    limit.exactly limitPointZero = true ∧ (ofValue? limit).isSome = true ∧
      (ofValue? limitPointZero).isSome = true ∧ ofValue? limit ≠ ofValue? limitPointZero := by
  decide +kernel

end KeyPart

end SearchJoin
