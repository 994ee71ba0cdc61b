import SearchJoin.Proofs.Join.Probe

/-!
# Key parts read again

What a part stands for has the exact value of what the part was read from, and is read as the same part
again. So every value that a probe asks for leads back to the part of the key that it comes from.

A binary64 number becomes an integer by a cast, which is exact between the limits of a signed word. The
upper limit is no binary64 number: what is compared is `2 ^ 63`, to which it is rounded.

Main statement: `HashJoin.rekeys_probeRequest`.
-/

namespace SearchJoin

namespace Number

/-- The least integer of a signed word. -/
def leastSigned : Number := .int ⟨-0x8000000000000000, by decide⟩

/-- The greatest integer of a signed word. -/
def greatestSigned : Number := .int ⟨0x7FFFFFFFFFFFFFFF, by decide⟩

theorem roundedUnits_leastSigned :
    leastSigned.roundedUnits = -0x8000000000000000 * (Binary64.unitsPerOne : Int) := by
  have hround : roundTo53Bits 0x8000000000000000 = 0x8000000000000000 := by decide +kernel
  simp only [leastSigned, roundedUnits, Int.reduceNeg, Int.reduceLT, if_true, Int.natAbs_neg,
    Int.reduceAbs, hround, Int.neg_mul, Nat.cast_ofNat]

/-- The greatest integer of a signed word is rounded up, out of the range. -/
theorem roundedUnits_greatestSigned :
    greatestSigned.roundedUnits = 0x8000000000000000 * (Binary64.unitsPerOne : Int) := by
  have hround : roundTo53Bits 0x7FFFFFFFFFFFFFFF = 0x8000000000000000 := by decide +kernel
  simp only [greatestSigned, roundedUnits, Int.reduceLT, if_false, Int.reduceAbs, hround,
    Nat.cast_ofNat]

end Number

namespace KeyPart

/-- The number is an integer, and it lies between the limits of a signed word as binary64 has them. -/
def CastsExactly (x : Binary64) : Prop :=
  (Binary64.unitsPerOne : Int) ∣ x.units ∧ Number.leastSigned.roundedUnits ≤ x.units ∧
    x.units < Number.greatestSigned.roundedUnits

theorem exists_ofNumber_eq_int_iff {x : Binary64} :
    (∃ i, ofNumber (.float x) = .int i) ↔ CastsExactly x := by
  have hpos := Binary64.cast_unitsPerOne_pos
  unfold CastsExactly
  rw [Number.roundedUnits_leastSigned, Number.roundedUnits_greatestSigned]
  constructor
  · rintro ⟨i, hi⟩
    obtain ⟨m, hm, hunits, hunsigned⟩ := exists_toValue_ofNumber (.float x)
    rw [hi] at hm
    obtain rfl : Number.int i = m := by
      injection congrArg Value.json hm
    have hk : x.units = i.value * Binary64.unitsPerOne := hunits.symm
    have hlt : i.value < 0x8000000000000000 :=
      of_decide_eq_true (Number.isUnsigned_int_eq_false.1 hunsigned)
    rw [hk]
    exact ⟨⟨i.value, Int.mul_comm ..⟩, Int.mul_le_mul_of_nonneg_right i.inRange.1 hpos.le,
      Int.mul_lt_mul_of_pos_right hlt hpos⟩
  · rintro ⟨⟨k, hk⟩, hleast, hgreatest⟩
    rw [Int.mul_comm] at hk
    rw [hk] at hleast hgreatest
    have hle : -0x8000000000000000 ≤ k := Int.le_of_mul_le_mul_right hleast hpos
    have hlt : k < 0x8000000000000000 := Int.lt_of_mul_lt_mul_right hgreatest hpos.le
    have hrange : -0x8000000000000000 ≤ k ∧ k < 0x10000000000000000 := by omega
    exact ⟨⟨k, hrange⟩, ofNumber_eq_int (decide_eq_true hlt) hk⟩

variable {v : Value} {part : KeyPart}

theorem isScalar_toValue (part : KeyPart) : part.toValue.isScalar = true := by
  cases part <;> rfl

/-- What a part stands for is read as the part again. -/
theorem ofValue?_toValue (h : ofValue? v = some part) : ofValue? part.toValue = some part := by
  obtain ⟨other, hother⟩ := exists_ofValue? (isScalar_toValue part)
  have hsame : part = other :=
    (eq_iff_exactly h hother).2 ⟨exactly_toValue h, (isUnsigned_toValue h).symm⟩
  rw [hother, hsame]

/-- A binary64 number becomes an integer where the cast is exact, and stays as it is elsewhere. -/
theorem ofNumber_float_cases (x : Binary64) :
    (CastsExactly x ∧ ∃ i, ofNumber (.float x) = .int i) ∨
      ¬ CastsExactly x ∧ ofNumber (.float x) = .float x := by
  rw [← exists_ofNumber_eq_int_iff]
  cases hword : (x.toInt?.bind WordInt.ofInt?).filter WordInt.isSigned with
  | some i =>
    have hint : ofNumber (.float x) = .int i := by simp only [ofNumber, hword]
    exact .inl ⟨⟨i, hint⟩, i, hint⟩
  | none =>
    have hfloat : ofNumber (.float x) = .float x := by simp only [ofNumber, hword]
    refine .inr ⟨?_, hfloat⟩
    rintro ⟨i, hi⟩
    rw [hfloat] at hi
    cases hi

end KeyPart

/-- A part that the keys have at a position was read from a document, from the key field that stands
there. -/
theorem KeyTable.exists_held_of_mem_distinctParts {fields : List String} {docs : List Document}
    {position : Nat} {part : KeyPart} (h : part ∈ (ofDocuments fields docs).distinctParts position) :
    ∃ doc ∈ docs, ∃ field held, fields[position]? = some field ∧ doc.get? field = some held ∧
      KeyPart.ofValue? held = some part := by
  obtain ⟨key, hkey, hpart⟩ := mem_distinctParts.1 h
  obtain ⟨doc, hdoc, hextracted⟩ := mem_keys_ofDocuments.1 hkey
  rw [getElem?_of_mapM_eq_some hextracted] at hpart
  obtain ⟨field, hfield, hheld⟩ := Option.bind_eq_some_iff.1 hpart
  obtain ⟨held, hget, hread⟩ := Option.bind_eq_some_iff.1 hheld
  exact ⟨doc, hdoc, field, held, hfield, hget, hread⟩

namespace HashJoin

variable {plan : HashJoin} {build : List Document}

/-- The choice for a key field stands where the field does. -/
theorem getElem?_choices {table : KeyTable} {position : Nat} {field : String}
    (h : (plan.keyFields plan.probeSide)[position]? = some field) :
    (plan.choices table)[position]? =
      some (.terms field ((table.distinctParts position).map KeyPart.toValue)) := by
  rw [choices, List.getElem?_map, List.getElem?_zipIdx, h, Option.map_some, Option.map_some,
    Nat.zero_add]

theorem length_choices (plan : HashJoin) (table : KeyTable) :
    (plan.choices table).length = (plan.keyFields plan.probeSide).length := by
  rw [choices, List.length_map, List.length_zipIdx]

/-- The values that stand for the parts at a position are read as these parts. -/
theorem map_ofValue?_distinctParts (position : Nat) :
    (((plan.buildTable build).distinctParts position).map KeyPart.toValue).map KeyPart.ofValue? =
      ((plan.buildTable build).distinctParts position).map some := by
  rw [List.map_map]
  refine List.map_congr_left fun part hpart => ?_
  obtain ⟨-, -, -, held, -, -, hread⟩ := KeyTable.exists_held_of_mem_distinctParts hpart
  exact KeyPart.ofValue?_toValue hread

/-- What a part stands for is a scalar of exactly the value that the part was read from, and is read as
the part again. A binary64 number is cast to an integer where this is exact, and kept as it is elsewhere.
So the values that a probe asks for in a key field are read as the parts which the build side's keys have
there, and each is the value of a build document. -/
theorem rekeys_probeRequest :
    (∀ (v : Value) (part : KeyPart), KeyPart.ofValue? v = some part →
      part.toValue.isScalar = true ∧ v.exactly part.toValue = true ∧
        KeyPart.ofValue? part.toValue = some part) ∧
      (∀ x : Binary64, (KeyPart.CastsExactly x ∧ ∃ i, KeyPart.ofNumber (.float x) = .int i) ∨
        ¬ KeyPart.CastsExactly x ∧ KeyPart.ofNumber (.float x) = .float x) ∧
      ∀ (plan : HashJoin) (build : List Document) (request : Request),
        plan.probeRequest (plan.buildTable build) = .ok request →
        ∃ own listed, ownQueries (plan.join.table plan.probeSide) = .ok own ∧
          request.query = Clauses.toQuery { filter := own ++ listed } ∧
          listed.length = (plan.keyFields plan.probeSide).length ∧
          ∀ (position : Nat) (field : String),
            (plan.keyFields plan.probeSide)[position]? = some field →
            ∃ values, listed[position]? = some (.terms field values) ∧
              values.map KeyPart.ofValue? =
                ((plan.buildTable build).distinctParts position).map some ∧
              ∀ value ∈ values, ∃ doc ∈ build, ∃ buildField held,
                (plan.keyFields plan.options.buildSide)[position]? = some buildField ∧
                  doc.get? buildField = some held ∧ held.exactly value = true ∧
                  KeyPart.ofValue? held = KeyPart.ofValue? value := by
  refine ⟨fun v part hpart => ?_, KeyPart.ofNumber_float_cases, fun plan build request hrequest => ?_⟩
  · exact ⟨KeyPart.isScalar_toValue part, KeyPart.exactly_toValue hpart,
      KeyPart.ofValue?_toValue hpart⟩
  · obtain ⟨side, own, -, hown, rfl⟩ := exists_of_probeRequest_eq_ok hrequest
    refine ⟨own, plan.choices (plan.buildTable build), hown, rfl, length_choices .., ?_⟩
    intro position field hfield
    refine ⟨_, getElem?_choices hfield, map_ofValue?_distinctParts position, fun value hvalue => ?_⟩
    obtain ⟨part, hpart, rfl⟩ := List.mem_map.1 hvalue
    obtain ⟨doc, hdoc, buildField, held, hbuildField, hheld, hread⟩ :=
      KeyTable.exists_held_of_mem_distinctParts hpart
    exact ⟨doc, hdoc, buildField, held, hbuildField, hheld, KeyPart.exactly_toValue hread,
      hread.trans (KeyPart.ofValue?_toValue hread).symm⟩

namespace Sample

/-- Minus zero, as a binary64 number. -/
def minusZero : Value := .num (.float (.zero true))

end Sample

/-- Minus zero becomes the integer zero, `2 ^ 63` with a point stays a binary64 number, and both are read
again. The probe for two depots asks for their numbers first. -/
theorem rekeys_probeRequest_sample :
    (KeyPart.ofValue? Sample.minusZero = some (.int ⟨0, by decide⟩) ∧
        Sample.minusZero.exactly (KeyPart.int ⟨0, by decide⟩).toValue = true ∧
        KeyPart.ofValue? (KeyPart.int ⟨0, by decide⟩).toValue = some (.int ⟨0, by decide⟩)) ∧
      (∃ part, KeyPart.ofValue? KeyPart.Sample.limitPointZero = some part ∧
        KeyPart.Sample.limitPointZero.exactly part.toValue = true ∧
        KeyPart.ofValue? part.toValue = some part) ∧
      ∃ request own listed values,
        Sample.parcels.probeRequest (Sample.parcels.buildTable Sample.built) = .ok request ∧
          request.query = Clauses.toQuery { filter := own ++ listed } ∧
          listed[0]? = some (.terms "id" values) ∧ values.map KeyPart.ofValue? =
            [some (.int ⟨1, by decide⟩), some (.int ⟨0x8000000000000000, by decide⟩)] := by
  obtain ⟨hparts, -, hprobe⟩ := rekeys_probeRequest
  have hzero : KeyPart.ofValue? Sample.minusZero = some (.int ⟨0, by decide⟩) := by decide +kernel
  obtain ⟨-, hexactly, hagain⟩ := hparts _ _ hzero
  have hlimit : KeyPart.ofValue? KeyPart.Sample.limitPointZero =
      some (.float ⟨false, 0x10000000000000, 1085, by decide⟩) := by decide +kernel
  obtain ⟨-, hexactly', hagain'⟩ := hparts _ _ hlimit
  have hrequest : Sample.parcels.probeRequest (Sample.parcels.buildTable Sample.built) = .ok _ := rfl
  obtain ⟨own, listed, -, hquery, -, heach⟩ := hprobe Sample.parcels Sample.built _ hrequest
  obtain ⟨values, hvalues, hread, -⟩ := heach 0 "id" rfl
  have hnumbers : (Sample.parcels.buildTable Sample.built).distinctParts 0 =
      [.int ⟨1, by decide⟩, .int ⟨0x8000000000000000, by decide⟩] := by decide +kernel
  rw [hnumbers] at hread
  exact ⟨⟨hzero, hexactly, hagain⟩, ⟨_, hlimit, hexactly', hagain'⟩, _, own, listed, values, hrequest,
    hquery, hvalues, hread⟩

end HashJoin

end SearchJoin
