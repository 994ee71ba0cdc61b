import SearchJoin.Proofs.Join.Binding
import SearchJoin.Proofs.Predicate.Residual

/-!
# Bound conditions of the `ON` clause test alike

A condition of the `ON` clause that is bound to a row of the first table is tested on documents of the
second. On scalars the test gives what the condition gives on the pair, in whichever order the condition
names its fields: to compare the other way round turns the order of the values around.

Main statement: `Join.exists_bindConnected_holds_iff`.
-/

namespace SearchJoin

theorem Value.items?_of_isScalar {v : Value} (hv : v.isScalar = true) : v.items? = none := by
  obtain ⟨json, normal⟩ := v
  cases json with
  | bool _ | num _ | str _ => rfl
  | _ => cases hv

namespace Join

variable {join : Join} {c : Condition} {k : Connection} {first second : Document} {v w : Value}

theorem bindable?_eq_some {field : String} (hget : first.get? field = some v)
    (hscalar : v.isScalar = true) : bindable? first field = some v := by
  rw [bindable?, hget, Option.filter_some, if_pos hscalar]

/-- The condition that a connection puts on the second table is tested as the condition on the pair. -/
theorem holds_bound_eq_ok_iff (h : join.connection? c = some k)
    (hfirst : first.get? k.first = some v) (hv : v.isScalar = true)
    (hsecond : second.get? k.second = some w) (hw : w.isScalar = true) (b : Bool) :
    (k.bound v).holds second.lookUp = .ok b ↔
      c.holds (join.pairLookUp first second) = .ok b := by
  obtain ⟨hscope, reference, hreference, hsides⟩ := exists_of_connection?_eq_some h
  have hoperands := Condition.operands_of_fieldOperand?_eq_some hreference
  have hbound : (k.bound v).holds second.lookUp = (k.bound v).test (some w) [v] := by
    rw [← hsecond]
    exact Condition.holds_of_literals [v] rfl rfl
  rw [hbound]
  rcases hsides with ⟨hfield, hother, hoperator⟩ | ⟨hfield, hother, hswapped⟩
  · have hvalue := pairLookUp_of_resolve?_second (resolve_eq_ok_iff.1 hfield) first second
    have hoperand := pairLookUp_of_resolve?_first (resolve_eq_ok_iff.1 hother) first second
    rw [hfirst] at hoperand
    rw [Condition.holds_of_field hoperands hvalue hoperand, hsecond]
    exact Condition.test_eq_ok_iff hoperator.symm hscope b
  · have hvalue := pairLookUp_of_resolve?_first (resolve_eq_ok_iff.1 hfield) first second
    have hoperand := pairLookUp_of_resolve?_second (resolve_eq_ok_iff.1 hother) first second
    rw [hsecond] at hoperand
    rw [Condition.holds_of_field hoperands hvalue hoperand, hfirst]
    exact Condition.test_swapped_eq_ok_iff hswapped hscope hv (Value.items?_of_isScalar hw) b

/-- A condition that passes the check compares a field of each table. For every pair of documents with
scalars in these fields it is bound to the first document: what results compares the second table's field
with the value, and its test on the second document has the results of the test on the pair. -/
theorem exists_bindConnected_holds_iff (hcheck : join.checkConnected c = .ok ()) :
    ∃ firstField secondField, join.connectedFields c = .ok (firstField, secondField) ∧
      ∀ (first second : Document) (v w : Value),
        first.get? firstField = some v → v.isScalar = true →
        second.get? secondField = some w → w.isScalar = true →
        ∃ bound, join.bindConnected c first = .ok (some bound) ∧
          bound.connector = .all ∧ bound.scope = c.scope ∧ bound.field = secondField ∧
          bound.operands = [.literal v] ∧
          ∀ b, bound.holds second.lookUp = .ok b ↔
            join.pairHolds (.leaf c) first second = .ok b := by
  obtain ⟨k, hk⟩ := checkConnected_eq_ok_iff.1 hcheck
  refine ⟨k.first, k.second, connectedFields_of_connection? hk, ?_⟩
  intro first second v w hfirst hv hsecond hw
  have hbound : join.bindConnected c first = .ok (some (k.bound v)) := by
    rw [bindConnected_of_connection? hk, bindable?_eq_some hfirst hv]
    rfl
  have hscope : k.scope = c.scope := (exists_of_connection?_eq_some hk).1
  exact ⟨k.bound v, hbound, rfl, hscope, rfl, rfl, holds_bound_eq_ok_iff hk hfirst hv hsecond hw⟩

namespace Sample

/-- The limit of the account is above the amount of the transfer. -/
def withinLimit : Condition := .fields "a.limit" .gt "t.amount"

/-- The limit, an integer. -/
def two : Value := .num (.int ⟨2, by decide⟩)

/-- The amount, which is no integer. -/
def half : Value := .num (.float ⟨false, 0x10000000000000, 1021, by decide⟩)

/-- An account with a limit. -/
def limited : Document := ⟨"", "accounts", .ofList [("limit", two)]⟩

/-- A transfer of an amount below it. -/
def small : Document := ⟨"", "transfers", .ofList [("amount", half)]⟩

end Sample

/-- The limit is an integer and the amount is not; bound, the amount has to be below the limit. -/
theorem exists_bindConnected_holds_iff_sample :
    Sample.transfers.checkConnected Sample.withinLimit = .ok () ∧
      ∃ bound, Sample.transfers.bindConnected Sample.withinLimit Sample.limited = .ok (some bound) ∧
        bound.holds Sample.small.lookUp = .ok true ∧
        Sample.transfers.pairHolds (.leaf Sample.withinLimit) Sample.limited Sample.small =
          .ok true := by
  have hcheck : Sample.transfers.checkConnected Sample.withinLimit = .ok () := rfl
  obtain ⟨firstField, secondField, hfields, hbind⟩ := exists_bindConnected_holds_iff hcheck
  have hnamed : Sample.transfers.connectedFields Sample.withinLimit = .ok ("limit", "amount") := rfl
  cases hfields.symm.trans hnamed
  obtain ⟨bound, hbound, -, -, -, -, hholds⟩ :=
    hbind Sample.limited Sample.small _ _ rfl rfl rfl rfl
  have hpair : Sample.transfers.pairHolds (.leaf Sample.withinLimit) Sample.limited Sample.small =
      .ok true := by
    have htest : Condition.anyPresent (fun v => v.isGt Sample.half) (some Sample.two) = true := by
      decide +kernel
    exact (Condition.holds_of_field rfl rfl rfl).trans (congrArg Except.ok htest)
  exact ⟨hcheck, bound, hbound, (hholds true).2 hpair, hpair⟩

end Join

end SearchJoin
