import SearchJoin.Proofs.Predicate.Comparison
import SearchJoin.Proofs.Predicate.Pattern
import SearchJoin.Proofs.Predicate.Reading
import SearchJoin.Proofs.Query.Condition
import SearchJoin.Proofs.Query.Selection

/-!
# Compiling keeps the meaning

The engine tests a field's value, or the items of an array, with the value of a query. A condition and
its query agree on every document, and so do a predicate and the query that it is compiled to.

Main statement: `Predicate.holds_iff_selects_compile`.
-/

namespace SearchJoin

/-- The value is within all bounds that are set. -/
def Bounds.admits (bounds : Bounds) (value : Value) : Bool :=
  bounds.gt.all (fun bound => value.isGt bound) && bounds.ge.all (fun bound => value.isGe bound) &&
    bounds.lt.all (fun bound => value.isLt bound) && bounds.le.all (fun bound => value.isLe bound)

namespace Query

/-- A field's value passes a test, or an item of it does. -/
def fieldPasses (doc : Document) (field : String) (test : Value → Bool) : Bool :=
  match doc.get? field with
  | none => false
  | some held => test held || (held.items?.getD []).any test

/-- The value is a string that matches a wildcard pattern. -/
def matchesWildcard (pattern : String) (value : Value) : Bool :=
  match value.string? with
  | some text => decide (Like.Matches (Like.wildcardTokens pattern.toList) text.toList)
  | none => false

/-- The engine's test of a document with a query on a field. Shapes and other documents than the
tested one are left out. -/
def testsField (doc : Document) : Query → Bool
  | .term field value => fieldPasses doc field fun held => held.equal value
  | .terms field values => fieldPasses doc field fun held => values.any fun value => held.equal value
  | .range field bounds => fieldPasses doc field bounds.admits
  | .wildcard field pattern => fieldPasses doc field (matchesWildcard pattern)
  | .exists field => (doc.get? field).any fun held => !held.isNull
  | _ => false

/-- A query selects a document by the engine's rules. -/
def selectsDocument (query : Query) (doc : Document) : Bool := query.selects (testsField doc)

end Query

/-! ## The engine's tests of values -/

/-- For a test that only scalars pass it is the same to test an array too, and to leave `null` out. -/
theorem fieldPasses_eq_anyPresent {test : Value → Bool} (htest : ScalarTest test) (doc : Document)
    (field : String) :
    Query.fieldPasses doc field test = Condition.anyPresent test (doc.get? field) := by
  unfold Query.fieldPasses
  cases doc.get? field with
  | none => rfl
  | some held =>
    obtain ⟨json, normal⟩ := held
    have hself := htest ⟨json, normal⟩
    cases json with
    | null => simp [Condition.anyPresent, Value.isNull, Value.items?, hself rfl]
    | arr items =>
      simp [Condition.anyPresent, Condition.anyValue, Value.isNull, Value.items?, hself rfl]
    | _ => simp [Condition.anyPresent, Condition.anyValue, Value.isNull, Value.items?]

/-- A pattern in which only wildcards are escaped matches as its wildcard pattern does. -/
theorem matchesWildcard_likeToWildcard {pattern : String}
    (h : Like.EscapesWildcards pattern.toList) :
    Query.matchesWildcard (.ofList (likeToWildcard pattern.toList)) =
      Condition.matchesPattern pattern := by
  funext value
  unfold Query.matchesWildcard Condition.matchesPattern
  cases value.string? with
  | none => rfl
  | some text =>
    simp only [String.toList_ofList, Like.wildcardTokens_likeToWildcard h]
    exact (Bool.eq_iff_iff.2 (by rw [Like.isMatch_iff, decide_eq_true_iff])).symm

/-! ## Conditions -/

namespace Condition

/-- The pattern of a `LIKE` condition escapes nothing but wildcards. -/
def EscapesWildcards (c : Condition) : Prop :=
  c.operator = .like ∨ c.operator = .notLike →
    ∀ pattern, .literal (.str pattern) ∈ c.operands → Like.EscapesWildcards pattern.toList

/-- A condition with literal operands is tested with their values. -/
theorem holds_eq_test {c : Condition} {values : List Value} (h : c.literals = .ok values)
    (doc : Document) : c.holds doc.lookUp = c.test (doc.get? c.field) values := by
  rw [holds, operands_of_literals_eq_ok h]
  simp only [Document.lookUp, operandValues_literals, ok_bind]

end Condition

namespace Query

variable {doc : Document} {field : String}

theorem selectsDocument_negate (query : Query) :
    query.negate.selectsDocument doc = !query.selectsDocument doc := selects_negate query

theorem selectsDocument_term {x : Value} (hx : x.isScalar = true) :
    (term field x).selectsDocument doc =
      Condition.anyPresent (fun v => v.equal x) (doc.get? field) :=
  fieldPasses_eq_anyPresent (scalarTest_equal hx) doc field

theorem selectsDocument_terms {xs : List Value} (hxs : ∀ x ∈ xs, x.isScalar = true) :
    (terms field xs).selectsDocument doc =
      Condition.anyPresent (fun v => xs.any fun x => v.equal x) (doc.get? field) :=
  fieldPasses_eq_anyPresent (scalarTest_any_equal hxs) doc field

theorem admits_gt (x : Value) : ({ gt := some x } : Bounds).admits = fun v => v.isGt x := by
  funext v
  simp [Bounds.admits]

theorem admits_ge (x : Value) : ({ ge := some x } : Bounds).admits = fun v => v.isGe x := by
  funext v
  simp [Bounds.admits]

theorem admits_lt (x : Value) : ({ lt := some x } : Bounds).admits = fun v => v.isLt x := by
  funext v
  simp [Bounds.admits]

theorem admits_le (x : Value) : ({ le := some x } : Bounds).admits = fun v => v.isLe x := by
  funext v
  simp [Bounds.admits]

theorem admits_between (low high : Value) :
    ({ ge := some low, le := some high } : Bounds).admits = Condition.inRange low high := by
  funext v
  simp [Bounds.admits, Condition.inRange]

theorem selectsDocument_range {bounds : Bounds} {test : Value → Bool} (htest : ScalarTest test)
    (h : bounds.admits = test) :
    (range field bounds).selectsDocument doc = Condition.anyPresent test (doc.get? field) := by
  rw [← fieldPasses_eq_anyPresent htest, ← h]
  rfl

theorem selectsDocument_wildcard {pattern : String} (h : Like.EscapesWildcards pattern.toList) :
    (wildcard field (.ofList (likeToWildcard pattern.toList))).selectsDocument doc =
      Condition.anyPresent (Condition.matchesPattern pattern) (doc.get? field) := by
  rw [← fieldPasses_eq_anyPresent (scalarTest_matchesPattern pattern),
    ← matchesWildcard_likeToWildcard h]
  rfl

theorem selectsDocument_exists :
    («exists» field).selectsDocument doc = Condition.isPresent (doc.get? field) := by
  have hexists : («exists» field).selectsDocument doc =
      (doc.get? field).any fun held => !held.isNull := rfl
  rw [hexists]
  cases doc.get? field <;> rfl

end Query

namespace Condition

/-- The query of a comparison with one bound selects by this comparison. -/
theorem selectsDocument_of_bound {c : Condition} {values : List Value} {query : Query}
    (doc : Document) {bounds : Value → Bounds} {compare : Value → Value → Bool}
    (htest : ∀ x, ScalarTest fun v => compare v x)
    (hadmits : ∀ x, (bounds x).admits = fun v => compare v x)
    (h : (do return Query.range c.field (bounds (← c.oneScalar values))) = Except.ok query) :
    ∃ x, values = [x] ∧ query.selectsDocument doc =
      anyPresent (fun v => compare v x) (doc.get? c.field) := by
  obtain ⟨x, hx, hquery⟩ := bind_eq_ok.1 h
  obtain ⟨hvalues, -⟩ := eq_of_oneScalar_eq_ok hx
  refine ⟨x, hvalues, ?_⟩
  rw [← pure_eq_ok.1 hquery, Query.selectsDocument_range (htest x) (hadmits x)]

/-- A test with the values of the operands says what the query made from them selects. -/
theorem test_eq_selectsDocument {c : Condition} {values : List Value} {query : Query}
    (doc : Document) (hscope : c.scope = .document) (hoperator : c.operator ≠ .geoIntersects)
    (hpattern : c.operator = .like ∨ c.operator = .notLike →
      ∀ pattern, values = [.str pattern] → Like.EscapesWildcards pattern.toList)
    (h : c.primitiveOf values = .ok query) :
    c.test (doc.get? c.field) values = .ok (query.selectsDocument doc) := by
  unfold primitiveOf at h
  -- An operator and its negation make their queries from the same operands.
  cases hop : c.operator with
  | eq =>
    simp only [hop] at h
    obtain ⟨x, hx, hquery⟩ := bind_eq_ok.1 h
    obtain ⟨rfl, hscalar⟩ := eq_of_oneScalar_eq_ok hx
    rw [← pure_eq_ok.1 hquery, Query.selectsDocument_term hscalar]
    simp only [test, hscope, hop]
  | ne =>
    simp only [hop] at h
    obtain ⟨x, hx, hquery⟩ := bind_eq_ok.1 h
    obtain ⟨rfl, hscalar⟩ := eq_of_oneScalar_eq_ok hx
    rw [← pure_eq_ok.1 hquery, Query.selectsDocument_negate, Query.selectsDocument_term hscalar]
    simp only [test, hscope, hop]
  | gt =>
    simp only [hop] at h
    obtain ⟨x, rfl, hselects⟩ := selectsDocument_of_bound doc scalarTest_isGt Query.admits_gt h
    rw [hselects]
    simp only [test, hscope, hop]
  | ge =>
    simp only [hop] at h
    obtain ⟨x, rfl, hselects⟩ := selectsDocument_of_bound doc scalarTest_isGe Query.admits_ge h
    rw [hselects]
    simp only [test, hscope, hop]
  | lt =>
    simp only [hop] at h
    obtain ⟨x, rfl, hselects⟩ := selectsDocument_of_bound doc scalarTest_isLt Query.admits_lt h
    rw [hselects]
    simp only [test, hscope, hop]
  | le =>
    simp only [hop] at h
    obtain ⟨x, rfl, hselects⟩ := selectsDocument_of_bound doc scalarTest_isLe Query.admits_le h
    rw [hselects]
    simp only [test, hscope, hop]
  | between =>
    simp only [hop] at h
    obtain ⟨bounds, hbounds, hquery⟩ := bind_eq_ok.1 h
    rw [eq_of_twoScalars_eq_ok hbounds, ← pure_eq_ok.1 hquery,
      Query.selectsDocument_range (scalarTest_inRange _ _) (Query.admits_between _ _)]
    simp only [test, hscope, hop]
  | notBetween =>
    simp only [hop] at h
    obtain ⟨bounds, hbounds, hquery⟩ := bind_eq_ok.1 h
    rw [eq_of_twoScalars_eq_ok hbounds, ← pure_eq_ok.1 hquery, Query.selectsDocument_negate,
      Query.selectsDocument_range (scalarTest_inRange _ _) (Query.admits_between _ _)]
    simp only [test, hscope, hop]
  | like =>
    simp only [hop] at h
    obtain ⟨pattern, hvalue, hquery⟩ := bind_eq_ok.1 h
    have hvalues := eq_of_oneString_eq_ok hvalue
    rw [hvalues, ← pure_eq_ok.1 hquery,
      Query.selectsDocument_wildcard (hpattern (.inl hop) pattern hvalues)]
    simp only [test, hscope, hop, Value.string?, Value.str]
  | notLike =>
    simp only [hop] at h
    obtain ⟨pattern, hvalue, hquery⟩ := bind_eq_ok.1 h
    have hvalues := eq_of_oneString_eq_ok hvalue
    rw [hvalues, ← pure_eq_ok.1 hquery, Query.selectsDocument_negate,
      Query.selectsDocument_wildcard (hpattern (.inr hop) pattern hvalues)]
    simp only [test, hscope, hop, Value.string?, Value.str]
  | isIn =>
    simp only [hop] at h
    obtain ⟨xs, hxs, hquery⟩ := bind_eq_ok.1 h
    obtain ⟨rfl, hscalars⟩ := eq_of_someScalars_eq_ok hxs
    rw [← pure_eq_ok.1 hquery, Query.selectsDocument_terms hscalars]
    simp only [test, hscope, hop]
  | notIn =>
    simp only [hop] at h
    obtain ⟨xs, hxs, hquery⟩ := bind_eq_ok.1 h
    obtain ⟨rfl, hscalars⟩ := eq_of_someScalars_eq_ok hxs
    rw [← pure_eq_ok.1 hquery, Query.selectsDocument_negate, Query.selectsDocument_terms hscalars]
    simp only [test, hscope, hop]
  | isNull =>
    simp only [hop] at h
    obtain ⟨_, hnone, hquery⟩ := bind_eq_ok.1 h
    rw [eq_of_noValues_eq_ok hnone, ← pure_eq_ok.1 hquery, Query.selectsDocument_negate,
      Query.selectsDocument_exists]
    simp only [test, hscope, hop]
  | isNotNull =>
    simp only [hop] at h
    obtain ⟨_, hnone, hquery⟩ := bind_eq_ok.1 h
    rw [eq_of_noValues_eq_ok hnone, ← pure_eq_ok.1 hquery, Query.selectsDocument_exists]
    simp only [test, hscope, hop]
  | geoIntersects => exact absurd hop hoperator

/-- Testing a condition on a document says whether the query of the condition selects it. -/
theorem holds_eq_selectsDocument {c : Condition} {query : Query} (doc : Document)
    (hscope : c.scope = .document) (hoperator : c.operator ≠ .geoIntersects)
    (hpattern : c.EscapesWildcards) (h : c.query = .ok query) :
    c.holds doc.lookUp = .ok (query.selectsDocument doc) := by
  obtain ⟨values, hvalues, hof⟩ := exists_primitiveOf_of_query_eq_ok hscope h
  rw [holds_eq_test hvalues]
  refine test_eq_selectsDocument doc hscope hoperator (fun hlike pattern hpat => ?_) hof
  refine hpattern hlike pattern ?_
  rw [operands_of_literals_eq_ok hvalues, hpat]
  exact List.mem_singleton_self _

end Condition

namespace Predicate

/-- A predicate over fields of documents whose patterns escape nothing but wildcards is tested on a
document with the result that its compiled query, in filter mode or not, gives in the engine. -/
theorem holds_iff_selects_compile {p : Predicate} {filterMode : Bool} {clauses : Clauses}
    (doc : Document) (hscope : ∀ c ∈ p.conditions, c.scope = .document)
    (hoperator : ∀ c ∈ p.conditions, c.operator ≠ .geoIntersects)
    (hpattern : ∀ c ∈ p.conditions, c.EscapesWildcards)
    (h : p.compile filterMode = .ok clauses) :
    ∃ b, p.holds doc.lookUp = .ok b ∧ (clauses.toQuery.selectsDocument doc = true ↔ b = true) := by
  obtain ⟨query, hquery, hselects⟩ := exists_query_of_compile_eq_ok h
  have hconditions : ∀ c ∈ p.conditions,
      c.holds doc.lookUp = .ok (c.selected (Query.testsField doc)) := by
    intro c hc
    obtain ⟨q, hq⟩ := exists_query_of_mem_conditions p hquery c hc
    rw [Condition.holds_eq_selectsDocument doc (hscope c hc) (hoperator c hc) (hpattern c hc) hq,
      Condition.selected, hq]
    rfl
  refine ⟨p.truth (Condition.selected (Query.testsField doc)), holds_eq_ok p hconditions, ?_⟩
  rw [Query.selectsDocument, hselects, selects_query p hquery]

/-- A conjunction of a choice and a group of alternatives. -/
def sample : Predicate :=
  .group .all [
    .leaf (.isIn "tags" [.str "x", .str "y"]),
    .group .all [.leaf (Condition.like "name" "a\\%_").orLeaf, .leaf (Condition.isNull "id").orLeaf]]

/-- A document that satisfies it by an item of an array and by a pattern with an escape. -/
theorem holds_iff_selects_compile_sample :
    ∃ clauses, sample.compile true = .ok clauses ∧ clauses.toQuery.selectsDocument
      ⟨"", "", .ofList [("id", .str "1"), ("name", .str "a%b"),
        ("tags", .ofJson (.arr [.str "z", .str "y"]))]⟩ = true := by
  have hpattern : ∀ c ∈ sample.conditions, c.EscapesWildcards := by
    have hescapes : Like.EscapesWildcards ['a', '\\', '%', '_'] := by
      intro before c after h
      rcases before with _ | ⟨_, _ | ⟨_, _ | ⟨_, _ | ⟨_, before⟩⟩⟩⟩ <;> simp_all [eq_comm]
    intro c hc hlike pattern hmem
    simp only [sample, conditions, conditionsOf, List.cons_append, List.nil_append,
      List.mem_cons, List.not_mem_nil, or_false] at hc
    rcases hc with rfl | rfl | rfl
    · rcases hlike with h | h <;> cases h
    · cases List.mem_singleton.1 hmem
      exact hescapes
    · rcases hlike with h | h <;> cases h
  obtain ⟨b, hholds, hselects⟩ := holds_iff_selects_compile
    ⟨"", "", .ofList [("id", .str "1"), ("name", .str "a%b"),
      ("tags", .ofJson (.arr [.str "z", .str "y"]))]⟩
    (by decide) (by decide) hpattern (rfl : sample.compile true = .ok _)
  refine ⟨_, rfl, hselects.2 ?_⟩
  cases hholds
  rfl

end Predicate

end SearchJoin
