import SearchJoin.Join.NestedLoop
import SearchJoin.Proofs.Query.Final

/-!
# Steps of a join that fail for good

Checking a join, binding it to a row, building its requests and testing its pairs do not talk to the
backend, so their errors are not retryable either. Nearly all of them are errors of the statement.
-/

namespace SearchJoin

namespace Join

variable (join : Join)

theorem faultsOnly_checkConnected (condition : Condition) : FaultsOnly (join.checkConnected condition) := by
  unfold checkConnected
  split
  · exact .error rfl
  · refine (join.faultsOnly_resolve _).bind fun left _ => (join.faultsOnly_resolve _).bind fun right _ => ?_
    dsimp only
    split
    · exact .error rfl
    · split
      · exact .error rfl
      · exact .ok ()

theorem faultsOnly_connectedFields (condition : Condition) : FaultsOnly (join.connectedFields condition) := by
  refine (join.faultsOnly_checkConnected condition).bind fun _ _ => ?_
  refine (join.faultsOnly_resolve _).bind fun left _ => (join.faultsOnly_resolve _).bind fun right _ => ?_
  rcases left with ⟨side, name⟩
  cases side with
  | first => exact .ok _
  | second => exact .ok _

theorem faultsOnly_bindCondition (condition : Condition) (row : Document) :
    FaultsOnly (join.bindCondition condition row) := by
  have hlookUp : ∀ field, FaultsOnly (join.rowLookUp condition row field) := by
    intro field
    refine (join.faultsOnly_resolve field).bind fun resolved _ => ?_
    rcases resolved with ⟨side, name⟩
    cases side with
    | first => exact .ok _
    | second => exact .error rfl
  have hother : FaultsOnly (condition.fieldOperand?.mapM join.resolve) := by
    cases condition.fieldOperand? with
    | none => exact .ok none
    | some name => exact (join.faultsOnly_resolve name).bind fun resolved _ => .ok _
  refine (join.faultsOnly_resolve _).bind fun left _ => hother.bind fun right _ => ?_
  rcases left with ⟨side, name⟩
  dsimp only
  split
  · exact .ok _
  · exact .ok _
  · split
    · exact .error rfl
    · exact .ok _
  · exact .error rfl
  · exact (condition.faultsOnly_holds hlookUp).bind fun holds _ => .ok _

mutual

theorem faultsOnly_bind (row : Document) : ∀ p : Predicate, FaultsOnly (join.bind row p)
  | .leaf condition => join.faultsOnly_bindCondition condition row
  | .group connector children => by
    rw [bind]
    refine (faultsOnly_bindChildren row {} children).bind fun group _ => ?_
    cases group with
    | none => exact .ok _
    | some group => exact .ok _

theorem faultsOnly_bindChildren (row : Document) :
    ∀ (group : BoundGroup) (ps : List Predicate), FaultsOnly (join.bindChildren row group ps)
  | _, [] => .ok _
  | group, child :: children => by
    rw [bindChildren]
    refine (faultsOnly_bind row child).bind fun bound _ => ?_
    split
    · exact .ok none
    all_goals exact faultsOnly_bindChildren row _ children

end

theorem faultsOnly_bindConnected (condition : Condition) (row : Document) :
    FaultsOnly (join.bindConnected condition row) := by
  refine (join.faultsOnly_checkConnected condition).bind fun _ _ => ?_
  refine (join.faultsOnly_bindCondition condition row).bind fun bound _ => ?_
  split
  · exact .ok _
  · exact .ok _

end Join

theorem Table.faultsOnly_request (table : Table) (size : UInt64) (further : List String) :
    FaultsOnly (table.request size further) := by
  refine (Predicate.faultsOnly_compileOptional _ _).bind fun clauses _ => ?_
  dsimp only
  split
  · exact .ok _
  · exact .ok _

namespace HashJoin

variable (plan : HashJoin)

/-- The check may also find that the two fields of a key cannot hold equal values. -/
theorem final_ofJoin (join : Join) (options : JoinOptions) : Final (ofJoin join options) := by
  have hkeyPair : ∀ condition, Final (keyPair join condition) := by
    intro condition
    unfold keyPair
    split
    · exact .error rfl
    · refine (join.faultsOnly_connectedFields condition).final.bind fun fields _ => ?_
      dsimp only
      split
      · split
        · exact .ok _
        · exact .error rfl
      · exact .ok _
  unfold ofJoin
  split
  · exact .error rfl
  · exact (ErrorsIn.mapM fun condition _ => hkeyPair condition).bind fun keys _ => .ok _

theorem faultsOnly_probeRequest (table : KeyTable) : FaultsOnly (plan.probeRequest table) := by
  have hown : FaultsOnly (ownQueries (plan.join.table plan.probeSide)) := by
    unfold ownQueries
    split
    · exact (Predicate.faultsOnly_compile _ _).bind fun clauses _ => .ok _
    · exact .ok _
  refine (Table.faultsOnly_request _ _ _).bind fun request _ => hown.bind fun own _ => ?_
  exact (ErrorsIn.mapM fun _ _ => Condition.faultsOnly_query _).bind fun parts _ => .ok _

theorem faultsOnly_collect (join : Join) (limit : Option Nat) (pairs : List (Document × Document)) :
    FaultsOnly (collect join limit pairs) := by
  have hcombine : ∀ pair, FaultsOnly (combine join pair) := by
    intro pair
    unfold combine
    split
    · refine (join.faultsOnly_pairHolds _ _ _).bind fun holds _ => ?_
      cases holds with
      | false => exact .ok _
      | true => exact .ok _
    · exact .ok _
  induction pairs generalizing limit with
  | nil => exact .ok _
  | cons pair pairs ih =>
    rw [collect]
    split
    · exact .ok _
    · refine (hcombine pair).bind fun row _ => ?_
      cases row with
      | none => exact ih limit
      | some row => exact (ih _).bind fun rows _ => .ok _

end HashJoin

namespace NestedLoop

variable (plan : NestedLoop)

theorem faultsOnly_ofJoin (join : Join) (options : JoinOptions) : FaultsOnly (ofJoin join options) :=
  (ErrorsIn.mapM fun condition _ => join.faultsOnly_checkConnected condition).bind fun _ _ => .ok _

theorem faultsOnly_boundConditions (join : Join) (row : Document) (conditions : List Condition) :
    FaultsOnly (boundConditions join row conditions) := by
  induction conditions with
  | nil => exact .ok _
  | cons condition conditions ih =>
    refine (join.faultsOnly_bindConnected condition row).bind fun bound _ => ?_
    cases bound with
    | none => exact .ok _
    | some bound => exact ih.bind fun rest _ => .ok _

theorem faultsOnly_boundFilter (join : Join) (row : Document) : FaultsOnly (boundFilter join row) := by
  unfold boundFilter
  split
  · exact .ok _
  · refine (join.faultsOnly_bind row _).bind fun bound _ => ?_
    split
    all_goals exact .ok _

theorem faultsOnly_subRequest (row : Document) : FaultsOnly (plan.subRequest row) := by
  have hpredicates : FaultsOnly (plan.subPredicates row) := by
    refine (faultsOnly_boundConditions _ _ _).bind fun conditions _ => ?_
    cases conditions with
    | none => exact .ok _
    | some conditions =>
      refine (faultsOnly_boundFilter _ _).bind fun filter _ => ?_
      cases filter with
      | none => exact .ok _
      | some filter => exact .ok _
  have hclauses : ∀ predicates, FaultsOnly (subClauses predicates) := by
    intro predicates
    unfold subClauses
    split
    · exact .ok _
    · exact Predicate.faultsOnly_compile _ _
  refine hpredicates.bind fun predicates _ => ?_
  cases predicates with
  | none => exact .ok _
  | some predicates => exact (hclauses predicates).bind fun clauses _ => .ok _

theorem faultsOnly_subRequests (rows : List Document) : FaultsOnly (plan.subRequests rows) := by
  induction rows with
  | nil => exact .ok _
  | cons row rows ih =>
    rw [subRequests]
    refine (plan.faultsOnly_subRequest row).bind fun request _ => ?_
    cases request with
    | none => exact ih
    | some request => exact ih.bind fun pairs _ => .ok _

end NestedLoop

end SearchJoin
