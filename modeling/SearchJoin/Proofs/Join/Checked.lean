import SearchJoin.Proofs.Join.Fields
import SearchJoin.Proofs.Predicate.Folding
import SearchJoin.Proofs.Predicate.Testable
import SearchJoin.Proofs.Query.Compiles

/-!
# Statements that can be checked beforehand

From a statement alone it is seen that its predicates can be tested on every pair of documents, or that
they can be bound to every row and that what is left has a query.

Main statements: `Join.exists_pairHolds_eq_ok`, `Join.exists_bind_eq_ok`.
-/

namespace SearchJoin

/-- What is left has a query. -/
def Bound.hasQuery : Bound → Bool
  | .constant _ => true
  | .left predicate => predicate.query.isOk

theorem Bound.hasQuery_iff {bound : Bound} :
    bound.hasQuery = true ↔ bound.Leaves fun p => p.query.isOk = true := by
  cases bound with
  | constant _ => exact iff_of_true rfl trivial
  | left p => exact Iff.rfl

/-- The table's own filter, if it has one, has a query. -/
def Table.hasQuery (table : Table) : Bool := table.filter.all fun filter => filter.query.isOk

theorem Table.isOk_request {table : Table} (h : table.hasQuery = true) (size : UInt64)
    (further : List String) : (table.request size further).isOk = true := by
  have hclauses : (Predicate.compileOptional table.filter true).isOk = true := by
    unfold hasQuery at h
    cases hfilter : table.filter with
    | none => rfl
    | some filter =>
      rw [hfilter] at h
      exact (Predicate.isOk_compile filter true).trans h
  obtain ⟨clauses, hclauses⟩ := isOk_iff.1 hclauses
  rw [request, hclauses, ok_bind]
  split
  · rfl
  · rfl

theorem HashJoin.isOk_ownQueries {table : Table} (h : table.hasQuery = true) :
    (ownQueries table).isOk = true := by
  unfold ownQueries
  unfold Table.hasQuery at h
  cases hfilter : table.filter with
  | none => rfl
  | some filter =>
    rw [hfilter] at h
    rw [isOk_bind_pure, Predicate.isOk_compile]
    exact h

namespace Join

variable {join : Join} {c : Condition} {row : Document}

/-! ## Tests on pairs -/

/-- The condition can be tested on every pair of documents. -/
def testsOnPairs (join : Join) (c : Condition) : Bool :=
  c.isTestable && c.fieldNames.all fun name => (join.resolve? name).isSome

theorem exists_pairHolds_eq_ok {p : Predicate}
    (h : ∀ c ∈ p.conditions, join.testsOnPairs c = true) (first second : Document) :
    ∃ b, join.pairHolds p first second = .ok b := by
  have hconditions : ∀ c ∈ p.conditions, c.holds (join.pairLookUp first second) =
      .ok (c.truth (join.pairLookUp first second)) := by
    intro c hc
    obtain ⟨htestable, hnames⟩ := Bool.and_eq_true_iff.1 (h c hc)
    have hknown : ∀ name ∈ c.fieldNames,
        ∃ value, join.pairLookUp first second name = .ok value := by
      intro name hname
      obtain ⟨⟨side, field⟩, hresolve⟩ :=
        Option.isSome_iff_exists.1 (List.all_eq_true.1 hnames name hname)
      rw [pairLookUp, resolve_eq_ok_iff.2 hresolve]
      cases side with
      | first => exact ⟨_, rfl⟩
      | second => exact ⟨_, rfl⟩
    obtain ⟨b, hb⟩ := Condition.exists_holds_eq_ok htestable hknown
    rw [hb, Condition.truth_of_holds_eq_ok hb]
  exact ⟨_, Predicate.holds_eq_ok p hconditions⟩

/-! ## Binding -/

/-- The condition can be bound to every row, and what is left has a query. -/
def bindsToQuery (join : Join) (c : Condition) : Bool :=
  match join.resolve? c.field, c.fieldOperand?.map join.resolve? with
  | some (.second, name), none => ({ c with field := name }).query.isOk
  | some (.second, name), some (some (.first, _)) => name != "" && c.operator.takesAnyScalar
  | some (.first, _), some (some (.second, name)) => name != "" && c.operator.swapped?.isSome
  | some (.first, _), _ =>
    c.isTestable && c.fieldNames.all fun name => (join.resolve? name).any (·.1 = .first)
  | _, _ => false

theorem hasQuery_substitute {value : Option Value} (hfield : c.field ≠ "")
    (hoperator : c.operator.takesAnyScalar = true)
    (hscalar : ∀ x, value = some x → x.isScalar = true) :
    (substitute c value).hasQuery = true := by
  cases value with
  | none => rfl
  | some x =>
    exact Condition.isOk_query_of_takesAnyScalar (c := { c with operands := [.literal x] }) hfield
      hoperator rfl (hscalar x rfl)

theorem isScalar_of_bindable?_eq_some {field : String} {x : Value}
    (h : bindable? row field = some x) : x.isScalar = true :=
  (Option.filter_eq_some_iff.1 h).2

/-- A condition of the first table that can always be tested is decided by the row. -/
theorem exists_constant_eq_ok (htestable : c.isTestable = true)
    (hnames : (c.fieldNames.all fun name => (join.resolve? name).any (·.1 = .first)) = true)
    (row : Document) : ∃ b, c.holds (join.rowLookUp c row) = .ok b := by
  refine Condition.exists_holds_eq_ok htestable fun name hname => ?_
  obtain ⟨⟨side, field⟩, hresolve, hside⟩ :=
    (Option.any_eq_true _ _).1 (List.all_eq_true.1 hnames name hname)
  cases of_decide_eq_true hside
  rw [rowLookUp, resolve_eq_ok_iff.2 hresolve]
  exact ⟨_, rfl⟩

/-- A condition that passes the check can be bound to every row, and what is left has a query. -/
theorem exists_bindCondition_eq_ok (h : join.bindsToQuery c = true) (row : Document) :
    ∃ bound, join.bindCondition c row = .ok bound ∧ bound.hasQuery = true := by
  cases hfield : join.resolve? c.field with
  | none => simp [bindsToQuery, hfield] at h
  | some own =>
    obtain ⟨side, name⟩ := own
    cases hreference : c.fieldOperand? with
    | none =>
      simp only [bindsToQuery, hfield, hreference, Option.map_none] at h
      rw [bindCondition, resolve_eq_ok_iff.2 hfield, ok_bind, hreference, Option.mapM_none]
      cases side with
      | first =>
        obtain ⟨htestable, hnames⟩ := Bool.and_eq_true_iff.1 h
        obtain ⟨b, hb⟩ := exists_constant_eq_ok htestable hnames row
        exact ⟨.constant b, bind_eq_ok.2 ⟨none, rfl, bind_eq_ok.2 ⟨b, hb, rfl⟩⟩, rfl⟩
      | second => exact ⟨_, rfl, h⟩
    | some reference =>
      rw [bindCondition, resolve_eq_ok_iff.2 hfield, ok_bind, hreference, Option.mapM_some]
      cases hother : join.resolve? reference with
      | none =>
        cases side with
        | first =>
          simp [bindsToQuery, hfield, hreference, hother,
            Condition.fieldNames_of_fieldOperand?_eq_some hreference] at h
        | second => simp [bindsToQuery, hfield, hreference, hother] at h
      | some other =>
        obtain ⟨otherSide, otherName⟩ := other
        simp only [bindsToQuery, hfield, hreference, Option.map_some, hother] at h
        rw [resolve_eq_ok_iff.2 hother]
        match side, otherSide with
        | .first, .first =>
          obtain ⟨htestable, hnames⟩ := Bool.and_eq_true_iff.1 h
          obtain ⟨b, hb⟩ := exists_constant_eq_ok htestable hnames row
          refine ⟨.constant b, bind_eq_ok.2 ⟨some (.first, otherName), rfl, ?_⟩, rfl⟩
          exact bind_eq_ok.2 ⟨b, hb, rfl⟩
        | .first, .second =>
          obtain ⟨hname, hswapped⟩ := Bool.and_eq_true_iff.1 h
          obtain ⟨operator, hoperator⟩ := Option.isSome_iff_exists.1 hswapped
          refine ⟨_, by simp only [hoperator]; rfl, ?_⟩
          exact hasQuery_substitute (c := { c with field := otherName, operator := operator })
            (bne_iff_ne.1 hname) (Operator.takesAnyScalar_of_swapped? hoperator)
            fun x => isScalar_of_bindable?_eq_some
        | .second, .first =>
          obtain ⟨hname, hoperator⟩ := Bool.and_eq_true_iff.1 h
          refine ⟨_, rfl, ?_⟩
          exact hasQuery_substitute (c := { c with field := name }) (bne_iff_ne.1 hname) hoperator
            fun x => isScalar_of_bindable?_eq_some
        | .second, .second => cases h

/-- A predicate whose conditions pass the check can be bound to every row, and what is left has a
query. -/
theorem exists_bind_eq_ok (row : Document) (p : Predicate)
    (h : ∀ c ∈ p.conditions, join.bindsToQuery c = true) :
    ∃ bound, join.bind row p = .ok bound ∧ bound.hasQuery = true := by
  simp only [Bound.hasQuery_iff]
  refine exists_bind_leaves (fun connector children hchildren => ?_) p fun c hc => ?_
  · rwa [Predicate.isOk_query_group, List.all_eq_true]
  · simpa only [Bound.hasQuery_iff] using exists_bindCondition_eq_ok (h c hc) row

end Join

/-! ## Statements -/

namespace Join

/-- A hash join of the statement that probes this side can be executed once its first request is made:
the own filter of the side has a query, its key fields have names, and the predicate over both tables
can be tested on every pair. -/
def hashChecked (join : Join) (probeSide : Side) : Bool :=
  (join.table probeSide).hasQuery && !(join.fieldsNamed probeSide join.conditions).contains "" &&
    join.filterConditions.all join.testsOnPairs

/-- A nested loop of the statement can be executed once its first request is made: the own filter of
the second table has a query, and all conditions over both tables can be bound to every row. -/
def loopChecked (join : Join) : Bool :=
  join.second.hasQuery && join.conditions.all join.bindsToQuery &&
    join.filterConditions.all join.bindsToQuery

end Join

end SearchJoin
