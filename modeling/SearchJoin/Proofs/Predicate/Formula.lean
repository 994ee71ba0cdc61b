import SearchJoin.Proofs.Predicate.Residual
import SearchJoin.Proofs.Query.Compiles

/-!
# Predicates that are built as formulas

A conjunction and a disjunction of predicates are groups whose children are connected alike, whatever
their connectors were before. A predicate that is built in no other way means what the formula says, as a
query and as a test: the rule for groups never meets children of both kinds, nor a group without children.

Main statement: `Formula.build_means`.
-/

namespace SearchJoin

namespace Condition

/-- The function does not look at how a condition is connected. -/
def IgnoresConnector {α : Type} (f : Condition → α) : Prop :=
  ∀ c connector, f { c with connector := connector } = f c

theorem ignoresConnector_isOk_query : IgnoresConnector fun c => c.query.isOk := fun _ _ => rfl

theorem ignoresConnector_selected (leaf : Query → Bool) : IgnoresConnector (selected leaf) :=
  fun _ _ => rfl

variable {lookUp : LookUp} {c : Condition} {b : Bool}

theorem holds_eq_ok_of_connector (connector : Connector) (h : c.holds lookUp = .ok b) :
    holds lookUp { c with connector := connector } = .ok b := by
  obtain ⟨value, hvalue, h⟩ := bind_eq_ok.1 h
  obtain ⟨values, hvalues, h⟩ := bind_eq_ok.1 h
  rw [holds, hvalue, ok_bind, hvalues, ok_bind]
  cases values with
  | none => exact h
  | some values => exact test_eq_ok_congr (c := c) rfl rfl h

/-- However a condition is connected, its test has the same result. The errors differ: they name the
condition. -/
theorem holds_connector_eq_ok_iff (connector : Connector) :
    holds lookUp { c with connector := connector } = .ok b ↔ c.holds lookUp = .ok b :=
  ⟨holds_eq_ok_of_connector (c := { c with connector := connector }) c.connector,
    holds_eq_ok_of_connector connector⟩

theorem ignoresConnector_truth (lookUp : LookUp) : IgnoresConnector (truth lookUp) :=
  fun _ connector => truth_eq_of_holds_iff fun _ => holds_connector_eq_ok_iff connector

theorem ignoresConnector_isOk_holds (lookUp : LookUp) :
    IgnoresConnector fun c => (c.holds lookUp).isOk := by
  intro c connector
  rw [Bool.eq_iff_iff, isOk_iff, isOk_iff]
  exact exists_congr fun b => holds_connector_eq_ok_iff connector

end Condition

namespace Predicate

variable {leaf : Condition → Bool}

theorem truth_withConnector (hleaf : Condition.IgnoresConnector leaf) (connector : Connector)
    (p : Predicate) : (p.withConnector connector).truth leaf = p.truth leaf := by
  cases p with
  | leaf c => exact hleaf c connector
  | group _ children => rfl

/-- A conjunction is true when all of its members are. -/
theorem truth_and (hleaf : Condition.IgnoresConnector leaf) (predicates : List Predicate) :
    (Predicate.and predicates).truth leaf = predicates.all fun p => p.truth leaf := by
  rw [Predicate.and, truth, truths_eq_map, groupTruth_of_all]
  · simp [Function.comp_def, truth_withConnector hleaf]
  · simp [connector_withConnector]

/-- A disjunction is true when one of its members is. -/
theorem truth_or (hleaf : Condition.IgnoresConnector leaf) {predicates : List Predicate}
    (hne : predicates ≠ []) :
    (Predicate.or predicates).truth leaf = predicates.any fun p => p.truth leaf := by
  rw [Predicate.or, truth, truths_eq_map, groupTruth_of_any]
  · simp [Function.comp_def, truth_withConnector hleaf]
  · simp [hne]
  · simp [connector_withConnector]

theorem map_conditions_withConnector {α : Type} {f : Condition → α}
    (hf : Condition.IgnoresConnector f) (connector : Connector) (p : Predicate) :
    (p.withConnector connector).conditions.map f = p.conditions.map f := by
  cases p with
  | leaf c => simp [withConnector, conditions, hf c connector]
  | group _ children => rfl

theorem map_conditionsOf_withConnector {α : Type} {f : Condition → α}
    (hf : Condition.IgnoresConnector f) (connector : Connector) (predicates : List Predicate) :
    (conditionsOf (predicates.map (withConnector connector))).map f =
      (conditionsOf predicates).map f := by
  induction predicates with
  | nil => rfl
  | cons p predicates ih =>
    rw [List.map_cons, conditionsOf, conditionsOf, List.map_append, List.map_append, ih,
      map_conditions_withConnector hf]

end Predicate

/-- A formula over conditions. A conjunction and a disjunction have at least one member, and each part can
be given a connector, which says nothing about its truth. -/
inductive Formula where
  /-- A condition. -/
  | condition (condition : Condition)
  /-- All of the members hold. -/
  | allOf (first : Formula) (others : List Formula)
  /-- One of the members holds. -/
  | anyOf (first : Formula) (others : List Formula)
  /-- The formula, with a connector for its predicate. -/
  | connected (connector : Connector) (formula : Formula)

namespace Formula

mutual

/-- The predicate of a formula. -/
def build : Formula → Predicate
  | .condition c => .leaf c
  | .allOf first others => .and (build first :: buildEach others)
  | .anyOf first others => .or (build first :: buildEach others)
  | .connected connector formula => (build formula).withConnector connector

/-- The predicates of several formulas. -/
def buildEach : List Formula → List Predicate
  | [] => []
  | formula :: formulas => build formula :: buildEach formulas

end

mutual

/-- The truth of a formula, from that of its conditions. -/
def truth (leaf : Condition → Bool) : Formula → Bool
  | .condition c => leaf c
  | .allOf first others => (truth leaf first :: truths leaf others).all id
  | .anyOf first others => (truth leaf first :: truths leaf others).any id
  | .connected _ formula => truth leaf formula

/-- The truths of several formulas. -/
def truths (leaf : Condition → Bool) : List Formula → List Bool
  | [] => []
  | formula :: formulas => truth leaf formula :: truths leaf formulas

end

mutual

/-- The conditions that a formula is built from, as they were before they were put into groups. -/
def conditions : Formula → List Condition
  | .condition c => [c]
  | .allOf first others => conditions first ++ conditionsOf others
  | .anyOf first others => conditions first ++ conditionsOf others
  | .connected _ formula => conditions formula

/-- The conditions of several formulas. -/
def conditionsOf : List Formula → List Condition
  | [] => []
  | formula :: formulas => conditions formula ++ conditionsOf formulas

end

variable {leaf other : Condition → Bool}

mutual

/-- The truth of a formula depends on that of its conditions alone. -/
theorem truth_congr : (f : Formula) → (∀ c ∈ f.conditions, leaf c = other c) →
    f.truth leaf = f.truth other
  | .condition c, h => h c (by simp [conditions])
  | .allOf first others, h => by
    rw [truth, truth, truth_congr first fun c hc => h c (by simp [conditions, hc]),
      truths_congr others fun c hc => h c (by simp [conditions, hc])]
  | .anyOf first others, h => by
    rw [truth, truth, truth_congr first fun c hc => h c (by simp [conditions, hc]),
      truths_congr others fun c hc => h c (by simp [conditions, hc])]
  | .connected _ formula, h => truth_congr formula h

theorem truths_congr : (formulas : List Formula) → (∀ c ∈ conditionsOf formulas, leaf c = other c) →
    truths leaf formulas = truths other formulas
  | [], _ => rfl
  | formula :: formulas, h => by
    rw [truths, truths, truth_congr formula fun c hc => h c (by simp [conditionsOf, hc]),
      truths_congr formulas fun c hc => h c (by simp [conditionsOf, hc])]

end

mutual

/-- The predicate of a formula is true when the formula is, if the truth of a condition has nothing to do
with its connector. -/
theorem truth_build (hleaf : Condition.IgnoresConnector leaf) : (f : Formula) →
    f.build.truth leaf = f.truth leaf
  | .condition c => rfl
  | .allOf first others => by
    rw [build, Predicate.truth_and hleaf, truth, ← truths_buildEach hleaf others,
      ← truth_build hleaf first, ← List.map_cons, List.all_map]
    rfl
  | .anyOf first others => by
    rw [build, Predicate.truth_or hleaf (List.cons_ne_nil _ _), truth,
      ← truths_buildEach hleaf others, ← truth_build hleaf first, ← List.map_cons, List.any_map]
    rfl
  | .connected connector formula => by
    rw [build, Predicate.truth_withConnector hleaf, truth_build hleaf formula, truth]

theorem truths_buildEach (hleaf : Condition.IgnoresConnector leaf) : (formulas : List Formula) →
    (buildEach formulas).map (fun p => p.truth leaf) = truths leaf formulas
  | [] => rfl
  | formula :: formulas => by
    rw [buildEach, List.map_cons, truth_build hleaf formula, truths_buildEach hleaf formulas, truths]

end

section Conditions

variable {α : Type} {g : Condition → α}

mutual

/-- Building keeps the conditions, but for their connectors. -/
theorem map_conditions_build (hg : Condition.IgnoresConnector g) : (f : Formula) →
    f.build.conditions.map g = f.conditions.map g
  | .condition c => rfl
  | .allOf first others => by
    rw [build, Predicate.and, Predicate.conditions, Predicate.map_conditionsOf_withConnector hg,
      Predicate.conditionsOf, conditions, List.map_append, List.map_append,
      map_conditions_build hg first, map_conditionsOf_buildEach hg others]
  | .anyOf first others => by
    rw [build, Predicate.or, Predicate.conditions, Predicate.map_conditionsOf_withConnector hg,
      Predicate.conditionsOf, conditions, List.map_append, List.map_append,
      map_conditions_build hg first, map_conditionsOf_buildEach hg others]
  | .connected connector formula => by
    rw [build, Predicate.map_conditions_withConnector hg, map_conditions_build hg formula, conditions]

theorem map_conditionsOf_buildEach (hg : Condition.IgnoresConnector g) : (formulas : List Formula) →
    (Predicate.conditionsOf (buildEach formulas)).map g = (conditionsOf formulas).map g
  | [] => rfl
  | formula :: formulas => by
    rw [buildEach, Predicate.conditionsOf, conditionsOf, List.map_append, List.map_append,
      map_conditions_build hg formula, map_conditionsOf_buildEach hg formulas]

end

end Conditions

/-- Whatever all conditions of a formula satisfy, all conditions of its predicate do. -/
theorem all_conditions_build {g : Condition → Bool} (hg : Condition.IgnoresConnector g)
    (f : Formula) : f.build.conditions.all g = f.conditions.all g := by
  have hall : ∀ conditions : List Condition, conditions.all g = (conditions.map g).all id := by
    intro conditions
    rw [List.all_map]
    rfl
  rw [hall, map_conditions_build hg, ← hall]

/-- The clauses of a predicate that is built as a formula select by its truth. -/
theorem selects_compile_build {f : Formula} {filterMode : Bool} {clauses : Clauses}
    (h : f.build.compile filterMode = .ok clauses) (leaf : Query → Bool) :
    clauses.toQuery.selects leaf = f.truth (Condition.selected leaf) := by
  obtain ⟨query, hquery, hselects⟩ := Predicate.exists_query_of_compile_eq_ok h
  rw [hselects leaf, Predicate.selects_query f.build hquery,
    truth_build (Condition.ignoresConnector_selected leaf)]

/-- When each condition of a formula can be tested, the test of its predicate gives its truth. -/
theorem holds_build {lookUp : Condition.LookUp} {value : Condition → Bool} {f : Formula}
    (h : ∀ c ∈ f.conditions, c.holds lookUp = .ok (value c)) :
    f.build.holds lookUp = .ok (f.truth value) := by
  have hvalue : f.truth (Condition.truth lookUp) = f.truth value :=
    truth_congr f fun c hc => Condition.truth_of_holds_eq_ok (h c hc)
  have htested : (f.build.conditions.all fun c => (c.holds lookUp).isOk) = true := by
    rw [all_conditions_build (Condition.ignoresConnector_isOk_holds lookUp), List.all_eq_true]
    intro c hc
    rw [h c hc]
    rfl
  rw [← hvalue, ← truth_build (Condition.ignoresConnector_truth lookUp)]
  refine Predicate.holds_eq_ok f.build fun c hc => ?_
  obtain ⟨b, hb⟩ := isOk_iff.1 (List.all_eq_true.1 htested c hc)
  rw [Condition.truth_of_holds_eq_ok hb, hb]

/-- A predicate that is built as a formula has clauses, in filter mode or not, exactly when each condition
of the formula has a query. The clauses select by the truth of the formula, each condition counting as its
own query selects; a test of the predicate gives the truth of the formula, each condition counting with its
own result, when they all have one. -/
theorem build_means (f : Formula) :
    (∀ filterMode,
      ((f.build.compile filterMode).isOk = true ↔ ∀ c ∈ f.conditions, c.query.isOk = true) ∧
      ∀ clauses, f.build.compile filterMode = .ok clauses → ∀ leaf,
        clauses.toQuery.selects leaf = f.truth (Condition.selected leaf)) ∧
    ∀ lookUp value, (∀ c ∈ f.conditions, c.holds lookUp = .ok (value c)) →
      f.build.holds lookUp = .ok (f.truth value) := by
  refine ⟨fun filterMode => ⟨?_, fun _ hclauses => selects_compile_build hclauses⟩,
    fun _ _ => holds_build⟩
  rw [Predicate.isOk_compile, Predicate.isOk_query_eq_all,
    all_conditions_build Condition.ignoresConnector_isOk_query, List.all_eq_true]

namespace Sample

/-- One of two states, as a group of one member that is an alternative at the root. -/
def oneOfStates : Formula :=
  .connected .any (.allOf (.connected .any
    (.anyOf (.condition (.eq "state" (.str "CA"))) [.connected .all
      (.condition (Condition.eq "state" (.str "NY")).orLeaf)])) [])

/-- A query for a term, of which only one holds. -/
def holdsNewYork : Query → Bool
  | .term "state" ⟨.str "NY", _⟩ => true
  | _ => false

end Sample

/-- The members of the disjunction stand in the clauses at the root. -/
theorem build_means_sample :
    ∃ clauses, Sample.oneOfStates.build.compile true = .ok clauses ∧
      clauses.toQuery.selects Sample.holdsNewYork = true ∧
      Sample.oneOfStates.build.holds
        (Document.lookUp ⟨"", "", .ofList [("state", .str "CA")]⟩) = .ok true := by
  obtain ⟨hcompile, hholds⟩ := build_means Sample.oneOfStates
  refine ⟨_, rfl, ?_, ?_⟩
  · rw [(hcompile true).2 _ rfl]
    rfl
  · exact hholds _ (fun c => c.connector == .all) (by
      intro c hc
      rcases List.mem_cons.1 hc with rfl | hc
      · rfl
      · rw [List.mem_singleton.1 hc]
        rfl)

end Formula

end SearchJoin
