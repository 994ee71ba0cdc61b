import SearchJoin.Proofs.Predicate.Comparison
import SearchJoin.Proofs.Predicate.Folding

/-!
# What is left of a predicate

A predicate over both tables is tested on a pair of documents, or it is bound to the first one and what
is left is tested on the second. A condition that compares the two tables binds only to a string, a
number or a truth value; for any other value of the row, and for none, it counts as false.

Main statement: `Join.holds_of_bind_eq_ok`.
-/

namespace SearchJoin

namespace Operator

variable {operator other : Operator}

/-- The comparison that an operator with swapped operands makes, or whose negation it makes. -/
def compares : Operator → Value → Value → Bool
  | .gt => Value.isGt
  | .lt => Value.isLt
  | .ge => Value.isGe
  | .le => Value.isLe
  | _ => Value.equal

theorem compares_of_swapped? (h : operator.swapped? = some other) {x : Value}
    (hx : x.isScalar = true) (y : Value) : other.compares y x = operator.compares x y := by
  cases operator with
  | eq => cases h; exact (Value.equal_comm hx y).symm
  | ne => cases h; exact (Value.equal_comm hx y).symm
  | gt => cases h; exact Value.isLt_swap x y
  | lt => cases h; exact (Value.isLt_swap y x).symm
  | ge => cases h; exact Value.isLe_swap x y
  | le => cases h; exact (Value.isLe_swap y x).symm
  | _ => cases h

theorem beq_ne_of_swapped? (h : operator.swapped? = some other) :
    (other == .ne) = (operator == .ne) := by
  cases operator <;> cases h <;> rfl

theorem scalarTest_compares {x : Value} (hx : x.isScalar = true) (operator : Operator) :
    ScalarTest fun v => operator.compares v x := by
  cases operator with
  | gt => exact scalarTest_isGt x
  | lt => exact scalarTest_isLt x
  | ge => exact scalarTest_isGe x
  | le => exact scalarTest_isLe x
  | _ => exact scalarTest_equal hx

end Operator

namespace Condition

variable {c d : Condition}

theorem test_of_swapped? {operator : Operator} (h : c.operator.swapped? = some operator)
    (hscope : ∀ childType, c.scope ≠ .child childType) (value : Option Value) (x : Value) :
    c.test value [x] = .ok
      ((c.operator == .ne) ^^ anyPresent (fun v => c.operator.compares v x) value) := by
  unfold test
  split
  · rename_i childType hchild
    exact absurd hchild (hscope childType)
  · cases hop : c.operator with
    | eq | gt | lt | ge | le => exact congrArg Except.ok (Bool.false_xor _).symm
    | ne => exact congrArg Except.ok (Bool.true_xor _).symm
    | _ => rw [hop] at h; cases h

theorem anyPresent_of_isScalar {v : Value} (hv : v.isScalar = true) (test : Value → Bool) :
    anyPresent test (some v) = test v := by
  obtain ⟨json, normal⟩ := v
  cases json with
  | bool _ | num _ | str _ => rfl
  | _ => cases hv

theorem anyPresent_of_scalarTest {test : Value → Bool} (htest : ScalarTest test) {v : Value}
    (hv : v.items? = none) : anyPresent test (some v) = test v := by
  cases hscalar : v.isScalar with
  | true => exact anyPresent_of_isScalar hscalar test
  | false =>
    rw [anyPresent, anyValue, hv, htest v hscalar]
    exact Bool.and_false _

/-- A comparison of two values comes out the same with its operands swapped, if the value that it
compares with is a scalar and the other one is no array. -/
theorem test_swapped_eq_ok_iff (hswapped : c.operator.swapped? = some d.operator)
    (hscope : d.scope = c.scope) {v w : Value} (hv : v.isScalar = true) (hw : w.items? = none)
    (b : Bool) : d.test (some w) [v] = .ok b ↔ c.test (some v) [w] = .ok b := by
  by_cases hchild : ∃ childType, c.scope = .child childType
  · obtain ⟨childType, hchild⟩ := hchild
    rw [test_of_child hchild, test_of_child (hscope.trans hchild)]
    exact ⟨nofun, nofun⟩
  · have hc : ∀ childType, c.scope ≠ .child childType := fun childType h => hchild ⟨_, h⟩
    have hcompare : anyPresent (fun x => d.operator.compares x v) (some w) =
        anyPresent (fun x => c.operator.compares x w) (some v) := by
      rw [anyPresent_of_scalarTest (Operator.scalarTest_compares hv d.operator) hw,
        Operator.compares_of_swapped? hswapped hv w, anyPresent_of_isScalar hv]
    rw [test_of_swapped? hswapped hc,
      test_of_swapped? (Operator.swapped?_swapped? hswapped) (hscope ▸ hc),
      Operator.beq_ne_of_swapped? hswapped, hcompare]

theorem truth_eq_of_holds_iff {lookUp other : LookUp}
    (h : ∀ b, d.holds other = .ok b ↔ c.holds lookUp = .ok b) : d.truth other = c.truth lookUp := by
  rw [truth, truth]
  cases hc : c.holds lookUp with
  | ok b => rw [(h b).2 hc]
  | error e =>
    cases hd : d.holds other with
    | ok b => rw [(h b).1 hd] at hc; cases hc
    | error e' => rfl

theorem test_eq_ok_iff {value : Option Value} {values : List Value} (hoperator : d.operator = c.operator)
    (hscope : d.scope = c.scope) (b : Bool) :
    d.test value values = .ok b ↔ c.test value values = .ok b :=
  ⟨test_eq_ok_congr hoperator.symm hscope.symm, test_eq_ok_congr hoperator hscope⟩

/-- Two conditions that make the same test have the same truth. -/
theorem truth_congr {lookUp other : LookUp} {value : Option Value} {values : List Value}
    (hoperator : d.operator = c.operator) (hscope : d.scope = c.scope)
    (hc : c.holds lookUp = c.test value values) (hd : d.holds other = d.test value values) :
    d.truth other = c.truth lookUp := by
  refine truth_eq_of_holds_iff fun b => ?_
  rw [hc, hd]
  exact test_eq_ok_iff hoperator hscope b

/-- A condition on child documents never holds: it cannot be tested. -/
theorem truth_of_child {childType : String} (hscope : c.scope = .child childType) (lookUp : LookUp) :
    c.truth lookUp = false := by
  rw [truth, holds]
  cases lookUp c.field with
  | error e => rfl
  | ok value =>
    rw [ok_bind]
    cases operandValues lookUp c.operands with
    | error e => rfl
    | ok values =>
      cases values with
      | none => rfl
      | some values => simp only [ok_bind, test_of_child hscope]

end Condition

namespace Join

variable {join : Join} {first second : Document} {c : Condition}

theorem pairLookUp_of_resolve?_first {field name : String}
    (h : join.resolve? field = some (.first, name)) (first second : Document) :
    join.pairLookUp first second field = .ok (first.get? name) := by
  rw [pairLookUp, resolve_eq_ok_iff.2 h]
  rfl

theorem pairLookUp_of_resolve?_second {field name : String}
    (h : join.resolve? field = some (.second, name)) (first second : Document) :
    join.pairLookUp first second field = .ok (second.get? name) := by
  rw [pairLookUp, resolve_eq_ok_iff.2 h]
  rfl

theorem pairLookUp_of_rowLookUp {field : String} {value : Option Value}
    (h : join.rowLookUp c first field = .ok value) :
    join.pairLookUp first second field = .ok value := by
  obtain ⟨⟨side, name⟩, hresolve, h⟩ := bind_eq_ok.1 h
  rw [pairLookUp, hresolve, ok_bind]
  cases side with
  | first => exact h
  | second => cases h

/-- The condition compares the two tables, and the row has no value that it can be bound to. -/
def unbound (join : Join) (row : Document) (c : Condition) : Bool :=
  match join.resolve? c.field, c.fieldOperand?.map join.resolve? with
  | some (.second, _), some (some (.first, name)) => (bindable? row name).isNone
  | some (.first, name), some (some (.second, _)) => (bindable? row name).isNone
  | _, _ => false

/-- A condition on a field of the second table has no other field among its operands. One that
compares a field of the first table with one of the second finds no array there, and a value if it
asks for a different one. -/
def readsAlike (join : Join) (second : Document) (c : Condition) : Bool :=
  match join.resolve? c.field, c.fieldOperand?.map join.resolve? with
  | some (.second, _), none => c.operands.all fun operand => operand.fieldName?.isNone
  | some (.first, _), some (some (.second, name)) =>
    ((second.get? name).all fun value => value.items?.isNone) &&
      (c.operator != .ne || (second.get? name).isSome)
  | _, _ => true

/-- The truth of a condition on a pair, but for one that the first document cannot be bound to. -/
def boundTruth (join : Join) (first second : Document) (c : Condition) : Bool :=
  !join.unbound first c && c.truth (join.pairLookUp first second)

theorem exists_literals {operands : List Operand}
    (h : (operands.all fun operand => operand.fieldName?.isNone) = true) :
    ∃ values : List Value, operands = values.map .literal := by
  induction operands with
  | nil => exact ⟨[], rfl⟩
  | cons operand operands ih =>
    obtain ⟨hoperand, hrest⟩ := Bool.and_eq_true_iff.1 h
    obtain ⟨values, rfl⟩ := ih hrest
    cases operand with
    | literal value => exact ⟨value :: values, rfl⟩
    | field name => cases hoperand

section Swapped

variable {operator : Operator} {reference name other : String} {v : Value}

/-- A comparison says the same of two values, whichever of them it names first, unless the second
is an array or is missing where a different one is asked for. -/
theorem truth_swapped (hswapped : c.operator.swapped? = some operator)
    (hoperands : c.operands = [.field reference])
    (hfield : join.resolve? c.field = some (.first, name))
    (hreference : join.resolve? reference = some (.second, other))
    (hv : bindable? first name = some v)
    (hitems : ∀ w, second.get? other = some w → w.items? = none)
    (hpresent : c.operator = .ne → second.get? other ≠ none) (d : Condition)
    (hd : d = { c with field := other, operator := operator, operands := [.literal v] }) :
    d.truth second.lookUp = c.truth (join.pairLookUp first second) := by
  obtain ⟨hget, hscalar⟩ := Option.filter_eq_some_iff.1 hv
  have hvalue := pairLookUp_of_resolve?_first hfield first second
  have hother := pairLookUp_of_resolve?_second hreference first second
  have hbound : d.holds second.lookUp = d.test (second.get? other) [v] := by
    rw [hd]
    exact Condition.holds_of_literals [v] rfl rfl
  have hdoperator : c.operator.swapped? = some d.operator := by rw [hd, hswapped]
  have hdscope : d.scope = c.scope := by rw [hd]
  cases hw : second.get? other with
  | none =>
    rw [hw] at hother hbound
    rw [Condition.truth_of_holds_eq_ok (Condition.holds_of_missing hoperands hvalue hother)]
    by_cases hchild : ∃ childType, c.scope = .child childType
    · obtain ⟨childType, hchild⟩ := hchild
      exact Condition.truth_of_child (hdscope.trans hchild) _
    · have hscope : ∀ childType, d.scope ≠ .child childType :=
        fun childType h => hchild ⟨_, hdscope.symm.trans h⟩
      have hne : (c.operator == .ne) = false := beq_eq_false_iff_ne.2 fun hne => hpresent hne hw
      rw [Condition.test_of_swapped? (Operator.swapped?_swapped? hdoperator) hscope,
        Operator.beq_ne_of_swapped? hdoperator, hne] at hbound
      exact Condition.truth_of_holds_eq_ok hbound
  | some w =>
    rw [hw] at hother hbound
    have hpair := Condition.holds_of_field hoperands hvalue hother
    rw [hget] at hpair
    refine Condition.truth_eq_of_holds_iff fun b => ?_
    rw [hbound, hpair]
    exact Condition.test_swapped_eq_ok_iff hdoperator hdscope hscalar (hitems w hw) b

end Swapped

/-- What the row decides is decided so on the pair. -/
theorem truth_of_row {bound : Bound} (hunbound : join.unbound first c = false)
    (h : (do return Bound.constant (← c.holds (join.rowLookUp c first))) = Except.ok bound) :
    bound.truth (Condition.truth second.lookUp) = join.boundTruth first second c := by
  obtain ⟨b, hb, h⟩ := bind_eq_ok.1 h
  have hpair : c.holds (join.pairLookUp first second) = .ok b :=
    Condition.holds_of_lookUp (fun _ _ => pairLookUp_of_rowLookUp) hb
  rw [← pure_eq_ok.1 h, boundTruth, hunbound, Condition.truth_of_holds_eq_ok hpair]
  rfl

/-- A condition keeps its truth when it is bound. -/
theorem truth_of_bindCondition_eq_ok {bound : Bound}
    (hreads : join.unbound first c = true ∨ join.readsAlike second c = true)
    (h : join.bindCondition c first = .ok bound) :
    bound.truth (Condition.truth second.lookUp) = join.boundTruth first second c := by
  obtain ⟨⟨side, name⟩, hfield, h⟩ := bind_eq_ok.1 h
  obtain ⟨other, hother, h⟩ := bind_eq_ok.1 h
  rw [resolve_eq_ok_iff] at hfield
  -- The cases are those of binding: first the condition's own side, then that of a field operand.
  cases hreference : c.fieldOperand? with
  | none =>
    rw [hreference, Option.mapM_none, pure_eq_ok] at hother
    subst hother
    cases side with
    | first => exact truth_of_row (by simp [unbound, hfield, hreference]) h
    | second =>
      have hunbound : join.unbound first c = false := by simp [unbound, hfield, hreference]
      have hliterals : join.readsAlike second c = true := hreads.resolve_left (by simp [hunbound])
      simp only [readsAlike, hfield, hreference, Option.map_none] at hliterals
      obtain ⟨values, hvalues⟩ := exists_literals hliterals
      have hpair := Condition.holds_of_literals values hvalues
        (pairLookUp_of_resolve?_second hfield first second)
      rw [← pure_eq_ok.1 h, boundTruth, hunbound]
      exact Condition.truth_congr rfl rfl hpair (Condition.holds_of_literals values hvalues rfl)
  | some reference =>
    rw [hreference, Option.mapM_some] at hother
    obtain ⟨⟨otherSide, otherName⟩, hresolve, hother⟩ := bind_eq_ok.1 hother
    rw [← pure_eq_ok.1 hother] at h
    rw [resolve_eq_ok_iff] at hresolve
    have hoperands := Condition.operands_of_fieldOperand?_eq_some hreference
    match side, otherSide with
    | .first, .first => exact truth_of_row (by simp [unbound, hfield, hreference, hresolve]) h
    | .first, .second =>
      cases hswapped : c.operator.swapped? with
      | none => simp only [hswapped] at h; cases h
      | some operator =>
        simp only [hswapped] at h
        rw [← pure_eq_ok.1 h, boundTruth]
        have hunbound : join.unbound first c = (bindable? first name).isNone := by
          simp [unbound, hfield, hreference, hresolve]
        cases hv : bindable? first name with
        | none => rw [hunbound, hv]; rfl
        | some v =>
          rw [hunbound, hv] at hreads ⊢
          have hother : join.readsAlike second c = true := hreads.resolve_left (by simp)
          simp only [readsAlike, hfield, hreference, Option.map_some, hresolve,
            Bool.and_eq_true_iff, Bool.or_eq_true_iff] at hother
          refine truth_swapped hswapped hoperands hfield hresolve hv (fun w hw => ?_)
            (fun hne hmissing => ?_) _ rfl
          · simpa [hw] using hother.1
          · simp [hne, hmissing] at hother
    | .second, .first =>
      have hvalue := pairLookUp_of_resolve?_second hfield first second
      have hother := pairLookUp_of_resolve?_first hresolve first second
      rw [← pure_eq_ok.1 h, boundTruth]
      have hunbound : join.unbound first c = (bindable? first otherName).isNone := by
        simp [unbound, hfield, hreference, hresolve]
      cases hv : bindable? first otherName with
      | none => rw [hunbound, hv]; rfl
      | some v =>
        rw [(Option.filter_eq_some_iff.1 hv).1] at hother
        rw [hunbound, hv]
        exact Condition.truth_congr rfl rfl (Condition.holds_of_field hoperands hvalue hother)
          (Condition.holds_of_literals [v] rfl rfl)
    | .second, .second => cases h

/-- When a predicate is bound to the first document of a pair, the test of what is left on the second
document gives the truth of the predicate on the pair, but for the conditions that compare the two
documents and find nothing to bind to: these count as false. So the result is that of the test on the
pair, if none of these conditions holds there. -/
theorem holds_of_bind_eq_ok {p : Predicate} {bound : Bound} {holds pairHolds : Bool}
    (hreads : ∀ c ∈ p.conditions, join.unbound first c = true ∨ join.readsAlike second c = true)
    (hpair : join.pairHolds p first second = .ok pairHolds)
    (hbound : join.bind first p = .ok bound) (hholds : bound.holds second = .ok holds) :
    holds = p.truth (join.boundTruth first second) ∧
      ((∀ c ∈ p.conditions, join.unbound first c = true →
        c.truth (join.pairLookUp first second) = false) → holds = pairHolds) := by
  have htruth : holds = p.truth (join.boundTruth first second) := by
    rw [← Bound.truth_of_holds_eq_ok hholds]
    exact truth_of_bind_eq_ok p (fun c hc => truth_of_bindCondition_eq_ok (hreads c hc)) hbound
  refine ⟨htruth, fun hfalse => ?_⟩
  have hconditions : ∀ c ∈ p.conditions,
      join.boundTruth first second c = c.truth (join.pairLookUp first second) := by
    intro c hc
    rw [boundTruth]
    cases hunbound : join.unbound first c with
    | false => rfl
    | true => exact (hfalse c hc hunbound).symm
  rw [htruth, Predicate.truth_congr p hconditions, Predicate.truth_of_holds_eq_ok p hpair]

namespace Sample

/-- Accounts and their transfers. -/
def transfers : Join where
  first := ⟨"a", "accounts", [], none, .empty⟩
  second := ⟨"t", "transfers", [], none, .empty⟩
  conditions := [.fields "a.id" .eq "t.account"]
  filter := none
  hints := []
  limit := none

/-- An account of no region. -/
def account : Document := ⟨"", "accounts", .ofList [("plan", .str "free"), ("region", .null)]⟩

/-- A transfer to another plan. -/
def transfer : Document :=
  ⟨"", "transfers", .ofList [("express", .bool true), ("plan", .str "paid"), ("region", .str "eu")]⟩

/-- The plans differ, and the transfer is an express one or stays in the region. -/
def crossing : Predicate :=
  .group .all [
    .leaf (.fields "a.plan" .ne "t.plan"),
    .group .all [
      .leaf (Condition.fields "t.region" .eq "a.region").orLeaf,
      .leaf (Condition.eq "t.express" (.bool true)).orLeaf]]

/-- What is left of it for the account. -/
def residue : Predicate :=
  .group .all [
    .leaf (.compare "plan" .ne (.str "free")),
    .group .all [.leaf (Condition.eq "express" (.bool true)).orLeaf]]

end Sample

/-- The regions do not compare, neither on the pair nor after binding. -/
theorem holds_of_bind_eq_ok_sample :
    Sample.transfers.bind Sample.account Sample.crossing = .ok (.left Sample.residue) ∧
      (Bound.left Sample.residue).holds Sample.transfer = .ok true ∧
      Sample.transfers.pairHolds Sample.crossing Sample.account Sample.transfer = .ok true ∧
      Sample.crossing.truth (Sample.transfers.boundTruth Sample.account Sample.transfer) = true := by
  have hbound : Sample.transfers.bind Sample.account Sample.crossing =
    .ok (.left Sample.residue) := rfl
  have hholds : (Bound.left Sample.residue).holds Sample.transfer = .ok true := rfl
  have hpair : Sample.transfers.pairHolds Sample.crossing Sample.account Sample.transfer =
    .ok true := rfl
  refine ⟨hbound, hholds, hpair, ?_⟩
  refine (holds_of_bind_eq_ok (fun c hc => ?_) hpair hbound hholds).1.symm
  rcases List.mem_cons.1 hc with rfl | hc
  · exact .inr rfl
  · rcases List.mem_cons.1 hc with rfl | hc
    · exact .inl rfl
    · rw [List.mem_singleton.1 hc]
      exact .inr rfl

/-- To differ from `null` holds on the pair, but nothing is bound. -/
theorem bind_differs_at_null :
    ∃ bound holds pairHolds,
      Sample.transfers.bind Sample.account (.leaf (.fields "t.region" .ne "a.region")) = .ok bound ∧
      bound.holds Sample.transfer = .ok holds ∧
      Sample.transfers.pairHolds (.leaf (.fields "t.region" .ne "a.region")) Sample.account
        Sample.transfer = .ok pairHolds ∧ holds ≠ pairHolds :=
  ⟨.constant false, false, true, rfl, rfl, rfl, Bool.false_ne_true⟩

end Join

end SearchJoin
