import SearchJoin.Proofs.Join.Orientation
import SearchJoin.Proofs.Join.Projection

/-!
# What a sub-query reads from a row

The sub-query for a row of the first table is built from values of the row. When only some fields of the
first table are wanted, the request for its rows fetches these, and with them the fields that a condition
names itself or compares with alone. A condition on the first table that compares with several operands
reads the fields among them besides, and these are not fetched.

Main statements: `NestedLoop.subRequest_eq_of_agree`, a sub-query depends on nothing but these fields;
`NestedLoop.subRequest_reads_unfetched`, rows that differ in a field that is read and not fetched.
-/

namespace SearchJoin

/-- The documents have the same values in the fields. -/
def Document.Agree (fields : List String) (doc other : Document) : Prop :=
  ∀ field ∈ fields, doc.get? field = other.get? field

namespace Document.Agree

variable {fields further : List String} {doc other : Document}

theorem of_subset (h : Agree fields doc other) (hsubset : ∀ field ∈ further, field ∈ fields) :
    Agree further doc other :=
  fun field hfield => h field (hsubset field hfield)

theorem append_iff :
    Agree (fields ++ further) doc other ↔ Agree fields doc other ∧ Agree further doc other :=
  List.forall_mem_append

theorem bindable?_eq (h : Agree fields doc other) {field : String} (hfield : field ∈ fields) :
    Join.bindable? doc field = Join.bindable? other field := by
  rw [Join.bindable?, Join.bindable?, h field hfield]

end Document.Agree

namespace Join

variable {join : Join} {c : Condition} {row other : Document}

/-- The fields of the first table among the operands of a condition on the first table, unless it compares
with a field alone. -/
def fieldsListed (join : Join) (c : Condition) : List String :=
  match join.resolve? c.field, c.fieldOperand? with
  | some (.first, _), none => (c.operands.filterMap Operand.fieldName?).filterMap fun name =>
      match join.resolve? name with
      | some (.first, field) => some field
      | _ => none
  | _, _ => []

/-- The fields of the first table that the predicate over both tables lists among several operands. -/
def listedFields (join : Join) : List String := join.filterConditions.flatMap join.fieldsListed

theorem mem_fieldsListed {own field operand : String}
    (hown : join.resolve? c.field = some (.first, own)) (hsingle : c.fieldOperand? = none)
    (hoperand : operand ∈ c.operands.filterMap Operand.fieldName?)
    (hresolve : join.resolve? operand = some (.first, field)) : field ∈ join.fieldsListed c := by
  unfold fieldsListed
  rw [hown, hsingle]
  exact List.mem_filterMap.2 ⟨operand, hoperand, by rw [hresolve]⟩

end Join

namespace NestedLoop

variable {join : Join} {c : Condition}

theorem mem_firstFields {name field : String} (hname : name = c.field ∨ c.fieldOperand? = some name)
    (hresolve : join.resolve? name = some (.first, field)) : field ∈ firstFields join c := by
  refine List.mem_filterMap.2 ⟨name, ?_, by rw [hresolve]⟩
  rcases hname with rfl | hname
  · exact List.mem_cons_self
  · rw [hname]
    exact List.mem_cons_of_mem _ List.mem_cons_self

end NestedLoop

namespace Join

variable {join : Join} {c : Condition} {row other : Document}

/-- A condition on the first table looks up the same values when the rows agree on its fields. -/
theorem holds_rowLookUp_eq_of_agree {own : String} (hown : join.resolve? c.field = some (.first, own))
    (hnamed : Document.Agree (NestedLoop.firstFields join c) row other)
    (hlisted : Document.Agree (join.fieldsListed c) row other) :
    c.holds (join.rowLookUp c row) = c.holds (join.rowLookUp c other) := by
  refine Condition.holds_congr fun name hname => ?_
  unfold rowLookUp resolve
  match hresolve : join.resolve? name with
  | none => rfl
  | some (.second, field) => rfl
  | some (.first, field) =>
    have hsame : row.get? field = other.get? field := by
      rcases List.mem_cons.1 hname with rfl | hoperand
      · exact hnamed field (NestedLoop.mem_firstFields (.inl rfl) hresolve)
      · cases hsingle : c.fieldOperand? with
        | none => exact hlisted field (mem_fieldsListed hown hsingle hoperand hresolve)
        | some reference =>
          rw [Condition.operands_of_fieldOperand?_eq_some hsingle] at hoperand
          obtain rfl : name = reference := List.mem_singleton.1 hoperand
          exact hnamed field (NestedLoop.mem_firstFields (.inr hsingle) hresolve)
    exact congrArg Except.ok hsame

/-- A condition is bound with values of the fields of the first table that it names itself, that it compares
with alone, and that are listed. -/
theorem bindCondition_eq_of_agree
    (hnamed : Document.Agree (NestedLoop.firstFields join c) row other)
    (hlisted : Document.Agree (join.fieldsListed c) row other) :
    join.bindCondition c row = join.bindCondition c other := by
  unfold bindCondition
  cases hfield : join.resolve c.field with
  | error e => rfl
  | ok resolved =>
    obtain ⟨side, name⟩ := resolved
    rw [resolve_eq_ok_iff] at hfield
    simp only [ok_bind]
    cases hreference : c.fieldOperand?.mapM join.resolve with
    | error e => rfl
    | ok resolved =>
      simp only [ok_bind]
      match side, resolved with
      | .second, none => rfl
      | .second, some (.second, _) => rfl
      | .second, some (.first, _) =>
        obtain ⟨reference, hoperand, hresolve⟩ := exists_of_mapM_eq_ok_some hreference
        rw [resolve_eq_ok_iff] at hresolve
        have hsame := hnamed.bindable?_eq (NestedLoop.mem_firstFields (.inr hoperand) hresolve)
        simp only [hsame]
      | .first, some (.second, _) =>
        have hsame := hnamed.bindable?_eq (NestedLoop.mem_firstFields (.inl rfl) hfield)
        simp only [hsame]
      | .first, none => simp only [holds_rowLookUp_eq_of_agree hfield hnamed hlisted]
      | .first, some (.first, _) =>
        simp only [holds_rowLookUp_eq_of_agree hfield hnamed hlisted]

end Join

namespace NestedLoop

variable {join : Join} {plan : NestedLoop} {row other : Document}

/-- A condition of the `ON` clause is bound with the value of the field of the first table that it names. -/
theorem bindConnected_eq_of_agree {c : Condition} (h : Document.Agree (firstFields join c) row other) :
    join.bindConnected c row = join.bindConnected c other := by
  cases hcheck : join.checkConnected c with
  | error e => rw [Join.bindConnected, Join.bindConnected, hcheck]; rfl
  | ok _ =>
    obtain ⟨k, hk⟩ := Join.checkConnected_eq_ok_iff.1 hcheck
    rw [firstFields_of_connection? hk] at h
    rw [Join.bindConnected_of_connection? hk, Join.bindConnected_of_connection? hk,
      h.bindable?_eq (List.mem_singleton.2 rfl)]

theorem boundConditions_eq_of_agree {conditions : List Condition}
    (h : Document.Agree (conditions.flatMap (firstFields join)) row other) :
    boundConditions join row conditions = boundConditions join other conditions := by
  induction conditions with
  | nil => rfl
  | cons c conditions ih =>
    obtain ⟨hfirst, hrest⟩ := Document.Agree.append_iff.1 h
    rw [boundConditions, boundConditions, bindConnected_eq_of_agree hfirst, ih hrest]

theorem boundFilter_eq_of_agree
    (hnamed : Document.Agree (join.filterConditions.flatMap (firstFields join)) row other)
    (hlisted : Document.Agree join.listedFields row other) :
    boundFilter join row = boundFilter join other := by
  unfold boundFilter
  cases hfilter : join.filter with
  | none => rfl
  | some filter =>
    have hconditions : join.filterConditions = filter.conditions := by
      rw [Join.filterConditions, hfilter]
      rfl
    rw [Join.listedFields, hconditions] at hlisted
    rw [hconditions] at hnamed
    have hbind : join.bind row filter = join.bind other filter :=
      Join.bind_congr filter fun c hc => Join.bindCondition_eq_of_agree
        (hnamed.of_subset fun field hfield => List.mem_flatMap.2 ⟨c, hc, hfield⟩)
        (hlisted.of_subset fun field hfield => List.mem_flatMap.2 ⟨c, hc, hfield⟩)
    simp only [hbind]

/-- When the request for the rows of the first table fetches only some fields, rows that have the same values
in these get the same sub-query, the same error or none, provided that they also have the same values in the
fields of the first table that are listed among several operands. -/
theorem subRequest_eq_of_agree {request : Request} (hrequest : plan.driveRequest = .ok request)
    (hsource : request.source ≠ []) (hfetched : Document.Agree request.source row other)
    (hlisted : Document.Agree plan.join.listedFields row other) :
    plan.subRequest row = plan.subRequest other := by
  have hnamed : Document.Agree (referencedFields plan.join) row other :=
    hfetched.of_subset fun field hfield =>
      (Table.mem_source_of_request hrequest hsource).2 (.inr hfield)
  rw [referencedFields, List.flatMap_append, Document.Agree.append_iff] at hnamed
  have hpredicates : plan.subPredicates row = plan.subPredicates other := by
    rw [subPredicates, subPredicates, boundConditions_eq_of_agree hnamed.1,
      boundFilter_eq_of_agree hnamed.2 hlisted]
  rw [subRequest, subRequest, hpredicates]

end NestedLoop

namespace Sample

/-- The names of users whose age lies within bounds of their own, with their orders. -/
def boundedAges : NestedLoop where
  join := { join with
    first := { join.first with fields := ["name"] }
    filter := some (.leaf (.of "a.age" .between [.field "a.low", .field "a.high"])) }
  options := options .first none

/-- A user of five years, with a lower bound and a city. -/
def fiveYears (low : UInt64) (city : String) : Document :=
  ⟨"", "users", .ofList [("age", .num (.ofUInt64 5)), ("city", .str city),
    ("high", .num (.ofUInt64 9)), ("id", .str "u1"), ("low", .num (.ofUInt64 low))]⟩

end Sample

namespace NestedLoop

/-- The bounds are read from the rows, but they are not fetched. -/
theorem subRequest_reads_unfetched :
    ofJoin Sample.boundedAges.join Sample.boundedAges.options = .ok Sample.boundedAges ∧
      ∃ request sub, Sample.boundedAges.driveRequest = .ok request ∧
        request.source = ["name", "id", "age"] ∧
        Document.Agree request.source (Sample.fiveYears 1 "") (Sample.fiveYears 6 "") ∧
        Sample.boundedAges.subRequest (Sample.fiveYears 1 "") = .ok (some sub) ∧
        Sample.boundedAges.subRequest (Sample.fiveYears 6 "") = .ok none :=
  ⟨rfl, _, _, rfl, rfl, List.forall_mem_cons.2
    ⟨rfl, List.forall_mem_cons.2 ⟨rfl, List.forall_mem_singleton.2 rfl⟩⟩, rfl, rfl⟩

/-- A field that is read by no condition makes no difference. -/
theorem subRequest_eq_of_agree_sample :
    ∃ sub, Sample.boundedAges.subRequest (Sample.fiveYears 1 "Rome") = .ok (some sub) ∧
      Sample.boundedAges.subRequest (Sample.fiveYears 1 "Oslo") = .ok (some sub) := by
  have hrequest : Sample.boundedAges.driveRequest = .ok _ := rfl
  have hfetched : Document.Agree ["name", "id", "age"] (Sample.fiveYears 1 "Rome")
      (Sample.fiveYears 1 "Oslo") :=
    List.forall_mem_cons.2 ⟨rfl, List.forall_mem_cons.2 ⟨rfl, List.forall_mem_singleton.2 rfl⟩⟩
  have hlisted : Document.Agree ["low", "high"] (Sample.fiveYears 1 "Rome") (Sample.fiveYears 1 "Oslo") :=
    List.forall_mem_cons.2 ⟨rfl, List.forall_mem_singleton.2 rfl⟩
  have hsame := subRequest_eq_of_agree hrequest (List.cons_ne_nil _ _) hfetched hlisted
  exact ⟨_, rfl, hsame.symm.trans rfl⟩

end NestedLoop

end SearchJoin
