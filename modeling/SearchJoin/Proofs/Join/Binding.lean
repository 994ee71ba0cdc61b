import SearchJoin.Join.Requests
import SearchJoin.Proofs.Predicate.Reading

/-!
# Conditions that are bound to a row

A condition of the `ON` clause names a field of each table, in one order or the other. What it asks of
the second table does not depend on the order: bound to a row of the first table, it compares the second
table's field with the row's value.

Main statements: `Join.checkConnected_eq_ok_iff`, `Join.bindConnected_of_connection?`.
-/

namespace SearchJoin

/-- What a condition of the `ON` clause asks of the second table. -/
structure Connection where
  /-- The field of the first table. -/
  first : String
  /-- The field of the second table. -/
  second : String
  /-- The comparison, with the second table's field in front. -/
  operator : Operator
  /-- Where the second table's field is found. -/
  scope : Scope

/-- The condition on the second table for a value of the first table's field. -/
def Connection.bound (k : Connection) (value : Value) : Condition :=
  ⟨.all, k.second, k.operator, [.literal value], k.scope⟩

namespace Join

variable {join : Join} {c : Condition} {k : Connection}

/-- The condition read from the second table, if it compares a field of each table. One that names the
first table's field first has its operands swapped. -/
def connection? (join : Join) (c : Condition) : Option Connection :=
  match join.resolve? c.field, c.fieldOperand?.bind join.resolve? with
  | some (.second, second), some (.first, first) => some ⟨first, second, c.operator, c.scope⟩
  | some (.first, first), some (.second, second) =>
    c.operator.swapped?.map fun operator => ⟨first, second, operator, c.scope⟩
  | _, _ => none

theorem exists_of_connection?_eq_some (h : join.connection? c = some k) :
    k.scope = c.scope ∧ ∃ reference, c.fieldOperand? = some reference ∧
      (join.resolve c.field = .ok (.second, k.second) ∧
          join.resolve reference = .ok (.first, k.first) ∧ c.operator = k.operator ∨
        join.resolve c.field = .ok (.first, k.first) ∧
          join.resolve reference = .ok (.second, k.second) ∧
          c.operator.swapped? = some k.operator) := by
  unfold connection? at h
  split at h
  · rename_i second first hfield hother
    obtain ⟨reference, hreference, hother⟩ := Option.bind_eq_some_iff.1 hother
    cases h
    exact ⟨rfl, reference, hreference,
      .inl ⟨resolve_eq_ok_iff.2 hfield, resolve_eq_ok_iff.2 hother, rfl⟩⟩
  · rename_i first second hfield hother
    obtain ⟨reference, hreference, hother⟩ := Option.bind_eq_some_iff.1 hother
    obtain ⟨operator, hoperator, rfl⟩ := Option.map_eq_some_iff.1 h
    exact ⟨rfl, reference, hreference,
      .inr ⟨resolve_eq_ok_iff.2 hfield, resolve_eq_ok_iff.2 hother, hoperator⟩⟩
  · cases h

/-- The conditions that pass the check are those that can be read from the second table. -/
theorem checkConnected_eq_ok_iff :
    join.checkConnected c = .ok () ↔ ∃ k, join.connection? c = some k := by
  constructor
  · intro h
    unfold checkConnected at h
    cases hreference : c.fieldOperand? with
    | none => rw [hreference] at h; cases h
    | some reference =>
      simp only [hreference] at h
      obtain ⟨⟨side, name⟩, hfield, h⟩ := bind_eq_ok.1 h
      obtain ⟨⟨other, otherName⟩, hother, h⟩ := bind_eq_ok.1 h
      rw [resolve_eq_ok_iff] at hfield hother
      simp only [connection?, hfield, hreference, Option.bind_some, hother]
      match side, other with
      | .first, .first => cases h
      | .second, .second => cases h
      | .second, .first => exact ⟨_, rfl⟩
      | .first, .second =>
        cases hswapped : c.operator.swapped? with
        | none => rw [hswapped] at h; cases h
        | some operator => exact ⟨_, rfl⟩
  · rintro ⟨k, hk⟩
    obtain ⟨-, reference, hreference, hsides⟩ := exists_of_connection?_eq_some hk
    unfold checkConnected
    rw [hreference]
    rcases hsides with ⟨hfield, hother, -⟩ | ⟨hfield, hother, hswapped⟩
    · simp only [hfield, hother, ok_bind]
      rfl
    · simp only [hfield, hother, ok_bind, hswapped]
      rfl

theorem connectedFields_of_connection? (h : join.connection? c = some k) :
    join.connectedFields c = .ok (k.first, k.second) := by
  obtain ⟨-, reference, hreference, hsides⟩ := exists_of_connection?_eq_some h
  rw [connectedFields, checkConnected_eq_ok_iff.2 ⟨k, h⟩, ok_bind, hreference, Option.getD_some]
  rcases hsides with ⟨hfield, hother, -⟩ | ⟨hfield, hother, -⟩
  · rw [hfield, ok_bind, hother]
    rfl
  · rw [hfield, ok_bind, hother]
    rfl

/-- A condition that is bound to a row asks what its connection does; nothing when the row has no value to
compare with. -/
theorem bindConnected_of_connection? (h : join.connection? c = some k) (row : Document) :
    join.bindConnected c row = .ok ((bindable? row k.first).map k.bound) := by
  obtain ⟨hscope, reference, hreference, hsides⟩ := exists_of_connection?_eq_some h
  have hbind : join.bindCondition c row = .ok (substitute
      { c with field := k.second, operator := k.operator } (bindable? row k.first)) := by
    unfold bindCondition
    rcases hsides with ⟨hfield, hother, hoperator⟩ | ⟨hfield, hother, hswapped⟩
    · rw [hfield, ok_bind, hreference, Option.mapM_some, hother, ← hoperator]
      rfl
    · rw [hfield, ok_bind, hreference, Option.mapM_some, hother]
      simp only [hswapped]
      rfl
  rw [bindConnected, checkConnected_eq_ok_iff.2 ⟨k, h⟩, ok_bind, hbind, ok_bind]
  cases bindable? row k.first with
  | none => rfl
  | some value =>
    rw [Option.map_some, Connection.bound, hscope]
    rfl

end Join

namespace HashJoin

variable {join : Join} {c : Condition} {pair : KeyPair}

theorem operator_of_keyPair_eq_ok (h : keyPair join c = .ok pair) : c.operator = .eq := by
  unfold keyPair at h
  by_cases hoperator : c.operator = .eq
  · exact hoperator
  · rw [if_pos hoperator] at h
    cases h

/-- A key pair comes from an equality, whichever of its fields the condition names first. -/
theorem connection?_of_keyPair_eq_ok (h : keyPair join c = .ok pair) :
    join.connection? c = some ⟨pair.first, pair.second, .eq, c.scope⟩ := by
  have hoperator := operator_of_keyPair_eq_ok h
  unfold keyPair at h
  rw [if_neg (not_not_intro hoperator)] at h
  obtain ⟨⟨first, second⟩, hfields, h⟩ := bind_eq_ok.1 h
  have hpair : (⟨first, second⟩ : KeyPair) = pair := by
    dsimp only at h
    split at h
    · split at h
      · exact pure_eq_ok.1 h
      · cases h
    · exact pure_eq_ok.1 h
  obtain ⟨_, hcheck, -⟩ := bind_eq_ok.1 hfields
  obtain ⟨k, hk⟩ := Join.checkConnected_eq_ok_iff.1 hcheck
  rw [Join.connectedFields_of_connection? hk] at hfields
  obtain ⟨hscope, reference, -, hsides⟩ := Join.exists_of_connection?_eq_some hk
  -- With its operands swapped an equality is one again.
  have hequality : k.operator = .eq := by
    rcases hsides with ⟨-, -, hsame⟩ | ⟨-, -, hswapped⟩
    · rw [← hsame, hoperator]
    · rw [hoperator] at hswapped
      exact (Option.some.inj hswapped).symm
  cases hfields
  rw [hk, ← hpair, ← hscope, ← hequality]

end HashJoin

/-- The join is on equalities of key fields alone, and these are fields of the documents. -/
structure Join.OnKeys (join : Join) (keys : List KeyPair) : Prop where
  /-- The key fields of the `ON` clause. -/
  keys_eq : join.conditions.mapM (HashJoin.keyPair join) = .ok keys
  /-- No condition looks elsewhere than in the documents. -/
  scope : ∀ c ∈ join.conditions, c.scope = .document
  /-- There is no predicate over both tables. -/
  filter : join.filter = none

/-- The condition that an equality of key fields puts on the second table for a row; none when the
row has no value to compare with. -/
def KeyPair.bound (row : Document) (pair : KeyPair) : Option Condition :=
  (Join.bindable? row pair.first).map (Condition.eq pair.second)

namespace Join

variable {join : Join} {c : Condition} {pair : KeyPair}

/-- An equality says the same about the second table, whichever of its fields it names first. -/
theorem bindConnected_of_keyPair (hpair : HashJoin.keyPair join c = .ok pair)
    (hscope : c.scope = .document) (row : Document) :
    join.bindConnected c row = .ok (pair.bound row) := by
  rw [bindConnected_of_connection? (HashJoin.connection?_of_keyPair_eq_ok hpair), hscope]
  rfl

end Join

namespace NestedLoop

variable {join : Join}

theorem boundConditions_of_keyPairs {conditions : List Condition} {keys : List KeyPair}
    (hkeys : conditions.mapM (HashJoin.keyPair join) = .ok keys)
    (hscope : ∀ c ∈ conditions, c.scope = .document) (row : Document) :
    boundConditions join row conditions =
      .ok ((keys.mapM (KeyPair.bound row)).map fun bounds => bounds.map .leaf) := by
  have heach := mapM_eq_ok_iff.1 hkeys
  clear hkeys
  induction heach with
  | nil => rfl
  | @cons c pair conditions keys hpair _ ih =>
    have hrest := ih fun c hc => hscope c (List.mem_cons_of_mem _ hc)
    rw [boundConditions, Join.bindConnected_of_keyPair hpair (hscope c List.mem_cons_self), ok_bind,
      List.mapM_cons]
    cases pair.bound row with
    | none => rfl
    | some bound =>
      simp only [hrest, ok_bind]
      cases keys.mapM (KeyPair.bound row) <;> rfl

end NestedLoop

end SearchJoin
