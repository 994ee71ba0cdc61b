import SearchJoin.Predicate.Evaluate
import SearchJoin.Proofs.Backend.Faults
import SearchJoin.Proofs.Query.Faults
import SearchJoin.Query.Request

/-!
# Steps that fail for good

Compiling a predicate to a query and testing it on a pair of documents do not talk to the backend. When
they fail the statement is at fault and they fail again, so their errors are not retryable.
-/

namespace SearchJoin

/-- The result is no retryable error. -/
abbrev Final {α : Type} (result : Except Error α) : Prop :=
  ErrorsIn (fun e => e.isRetryable = false) result

/-- The result is no error but one of the statement. -/
abbrev FaultsOnly {α : Type} (result : Except Error α) : Prop :=
  ErrorsIn (fun e => e.isStatementFault = true) result

theorem Error.isRetryable_of_isStatementFault {e : Error} (h : e.isStatementFault = true) :
    e.isRetryable = false := by
  cases e with
  | malformedPredicate _ _ | unsupportedJoinPredicate _ => rfl
  | _ => cases h

theorem FaultsOnly.final {α : Type} {result : Except Error α} (h : FaultsOnly result) : Final result :=
  h.imp fun _ => Error.isRetryable_of_isStatementFault

/-! ## Compiling -/

theorem Condition.faultsOnly_query (c : Condition) : FaultsOnly c.query :=
  c.errorsIn_query.imp fun _ he => by
    obtain ⟨fault, rfl, -⟩ := he
    rfl

namespace Predicate

theorem faultsOnly_compile (p : Predicate) (filterMode : Bool) : FaultsOnly (p.compile filterMode) :=
  errorsIn_compile (fun c _ => c.faultsOnly_query) filterMode

theorem faultsOnly_compileOptional (p : Option Predicate) (filterMode : Bool) :
    FaultsOnly (compileOptional p filterMode) := by
  cases p with
  | none => exact .ok _
  | some p => exact p.faultsOnly_compile filterMode

end Predicate

theorem Select.faultsOnly_request (select : Select) : FaultsOnly select.request :=
  (Predicate.faultsOnly_compileOptional _ _).bind fun _ _ => .ok _

/-! ## Testing -/

theorem Condition.faultsOnly_test (c : Condition) (value : Option Value) (operands : List Value) :
    FaultsOnly (c.test value operands) := by
  unfold Condition.test
  dsimp only
  split
  · exact .error rfl
  · split
    -- The operators that take a pattern look at it first; all others test at once or have the wrong
    -- number of operands.
    case h_9 | h_10 =>
      split
      · exact .ok _
      · exact .error rfl
    all_goals first
      | exact .ok _
      | exact .error rfl

theorem Condition.faultsOnly_operandValues {lookUp : LookUp} (hlookUp : ∀ field, FaultsOnly (lookUp field))
    (operands : List Operand) : FaultsOnly (operandValues lookUp operands) := by
  induction operands with
  | nil => exact .ok _
  | cons operand operands ih =>
    cases operand with
    | literal value => exact ih.bind fun values _ => .ok _
    | field name =>
      refine (hlookUp name).bind fun value _ => ?_
      cases value with
      | none => exact .ok _
      | some value => exact ih.bind fun values _ => .ok _

theorem Condition.faultsOnly_holds {lookUp : LookUp} (hlookUp : ∀ field, FaultsOnly (lookUp field))
    (c : Condition) : FaultsOnly (c.holds lookUp) := by
  have hoperands := faultsOnly_operandValues hlookUp c.operands
  refine (hlookUp c.field).bind fun value _ => hoperands.bind fun operands _ => ?_
  cases operands with
  | none => exact .ok _
  | some operands => exact c.faultsOnly_test value operands

mutual

theorem Predicate.faultsOnly_holds {lookUp : Condition.LookUp} (hlookUp : ∀ field, FaultsOnly (lookUp field)) :
    ∀ p : Predicate, FaultsOnly (p.holds lookUp)
  | .leaf condition => condition.faultsOnly_holds hlookUp
  | .group _ children => faultsOnly_groupHolds hlookUp false none children

theorem Predicate.faultsOnly_groupHolds {lookUp : Condition.LookUp}
    (hlookUp : ∀ field, FaultsOnly (lookUp field)) : ∀ (hasAll : Bool) (anyHolds : Option Bool)
    (ps : List Predicate), FaultsOnly (groupHolds lookUp hasAll anyHolds ps)
  | _, _, [] => .ok _
  | hasAll, anyHolds, child :: children => by
    rw [groupHolds]
    refine (faultsOnly_holds hlookUp child).bind fun childHolds _ => ?_
    split
    · split
      · exact faultsOnly_groupHolds hlookUp true anyHolds children
      · exact .ok _
    · exact faultsOnly_groupHolds hlookUp hasAll _ children

end

namespace Join

theorem faultsOnly_resolve (join : Join) (field : String) : FaultsOnly (join.resolve field) := by
  unfold resolve
  split
  · exact .ok _
  · exact .error rfl

theorem faultsOnly_pairHolds (join : Join) (p : Predicate) (first second : Document) :
    FaultsOnly (join.pairHolds p first second) := by
  refine Predicate.faultsOnly_holds (fun field => ?_) p
  refine (join.faultsOnly_resolve field).bind fun resolved _ => ?_
  rcases resolved with ⟨side, name⟩
  cases side with
  | first => exact .ok _
  | second => exact .ok _

end Join

end SearchJoin
