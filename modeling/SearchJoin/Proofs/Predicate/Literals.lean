import SearchJoin.Proofs.Predicate.Folding
import SearchJoin.Proofs.Query.Condition
import SearchJoin.Proofs.Query.Faults
import SearchJoin.Proofs.Query.Selection

/-!
# Whether a bound predicate names fields in its operands

A predicate can be compiled only when all operands in it are literals. Binding replaces an operand that is
the only one and names a field of the row. A condition on the second table with any other operands is left
with them as they are, so a field among several operands stays.

Main statements: `Join.onlyLiterals_of_bind_eq_left`; `Join.bind_keeps_field`, a field that stays.
-/

namespace SearchJoin

namespace Condition

variable {c : Condition}

/-- All operands of the condition are literals. -/
def onlyLiterals (c : Condition) : Bool := c.operands.all fun operand => operand.fieldName?.isNone

theorem onlyLiterals_iff : c.onlyLiterals = true ↔ ∀ name, .field name ∉ c.operands := by
  unfold onlyLiterals
  rw [List.all_eq_true]
  constructor
  · intro h name hname
    cases h _ hname
  · intro h operand hoperand
    cases operand with
    | literal value => rfl
    | field name => exact absurd hoperand (h name)

theorem onlyLiterals_of_query_eq_ok {query : Query} (h : c.query = .ok query) :
    c.onlyLiterals = true := by
  obtain ⟨primitive, hprimitive, -⟩ := bind_eq_ok.1 h
  unfold Condition.primitive at hprimitive
  split at hprimitive
  · cases hprimitive
  · obtain ⟨values, hvalues, -⟩ := bind_eq_ok.1 hprimitive
    rw [onlyLiterals_iff, operands_of_literals_eq_ok hvalues]
    simp

end Condition

namespace Predicate

variable {p : Predicate} {filterMode : Bool}

theorem mem_conditionsOf {c : Condition} {children : List Predicate} :
    c ∈ conditionsOf children ↔ ∃ child ∈ children, c ∈ child.conditions := by
  induction children with
  | nil => simp [conditionsOf]
  | cons child children ih => simp [conditionsOf, ih]

/-- Compiling a predicate without fields in its operands does not fail for one. -/
theorem compile_ne_unboundField (h : ∀ c ∈ p.conditions, c.onlyLiterals = true)
    (field name : String) :
    p.compile filterMode ≠ .error (.malformedPredicate field (.unboundField name)) := by
  intro hcompile
  have herrors : ErrorsIn (fun e => ∃ c ∈ p.conditions, c.Faults e) (p.compile filterMode) :=
    errorsIn_compile (fun c hc => c.errorsIn_query.imp fun _ he => ⟨c, hc, he⟩) filterMode
  obtain ⟨c, hc, fault, hfault, hunbound⟩ := herrors _ hcompile
  cases hfault
  exact Condition.onlyLiterals_iff.1 (h c hc) name (hunbound name rfl)

theorem onlyLiterals_of_compile_eq_ok {clauses : Clauses} (h : p.compile filterMode = .ok clauses) :
    ∀ c ∈ p.conditions, c.onlyLiterals = true := by
  intro c hc
  obtain ⟨query, hquery, -⟩ := exists_query_of_compile_eq_ok h
  obtain ⟨own, hown⟩ := exists_query_of_mem_conditions p hquery c hc
  exact Condition.onlyLiterals_of_query_eq_ok hown

end Predicate

namespace Join

variable {join : Join} {row : Document} {c : Condition} {p q : Predicate}

/-- No field is left among the operands when the condition is bound: they are literals, or the only one is
a field, or the condition is on the first table. -/
def bindsToLiterals (join : Join) (c : Condition) : Bool :=
  match join.resolve? c.field, c.fieldOperand? with
  | some (.second, _), none => c.onlyLiterals
  | _, _ => true

theorem onlyLiterals_of_bindCondition_eq_left {d : Condition}
    (h : join.bindCondition c row = .ok (.left (.leaf d))) :
    d.onlyLiterals = join.bindsToLiterals c := by
  obtain ⟨e, he, hcases⟩ := exists_of_bindCondition_eq_left h
  cases he
  rcases hcases with ⟨name, hfield, hnone, rfl⟩ | ⟨hsome, field, operator, x, rfl⟩
  · simp only [bindsToLiterals, hfield, hnone]
    rfl
  · have hbinds : join.bindsToLiterals c = true := by
      unfold bindsToLiterals
      split
      · exact absurd ‹_› hsome
      · rfl
    rw [hbinds]
    rfl

/-- Every condition that is left comes from a condition of the predicate. -/
theorem exists_bindCondition_of_bind_eq_left (h : join.bind row p = .ok (.left q)) :
    ∀ d ∈ q.conditions, ∃ c ∈ p.conditions,
      join.bindCondition c row = .ok (.left (.leaf d)) := by
  let Comes (q : Predicate) : Prop := ∀ d ∈ q.conditions, ∃ c ∈ p.conditions,
    join.bindCondition c row = .ok (.left (.leaf d))
  have hgroups : Predicate.GroupsInherit Comes := by
    intro connector children hchildren d hd
    obtain ⟨child, hchild, hd⟩ := Predicate.mem_conditionsOf.1 hd
    exact hchildren child hchild d hd
  have hconditions : ∀ c ∈ p.conditions, ∀ {bound}, join.bindCondition c row = .ok bound →
      bound.Leaves Comes := by
    intro c hc bound hbound
    cases bound with
    | constant holds => trivial
    | left other =>
      obtain ⟨d, rfl, -⟩ := exists_of_bindCondition_eq_left hbound
      intro e he
      rw [Predicate.conditions, List.mem_singleton] at he
      exact ⟨c, hc, he ▸ hbound⟩
  exact leaves_of_bind_eq_ok hgroups p hconditions h

/-- What is left of a condition has only literals as its operands, unless the condition is on the second
table and has a field among operands that are not this field alone. What is left of a predicate can be
compiled only if all operands in it are literals, and if they are, compiling it does not fail for a field
that is not bound. -/
theorem onlyLiterals_of_bind_eq_left (h : join.bind row p = .ok (.left q)) :
    (∀ d ∈ q.conditions, ∃ c ∈ p.conditions,
        join.bindCondition c row = .ok (.left (.leaf d)) ∧
          d.onlyLiterals = join.bindsToLiterals c) ∧
      ∀ filterMode,
        (∀ clauses, q.compile filterMode = .ok clauses →
          ∀ d ∈ q.conditions, d.onlyLiterals = true) ∧
        ((∀ d ∈ q.conditions, d.onlyLiterals = true) → ∀ field name,
          q.compile filterMode ≠ .error (.malformedPredicate field (.unboundField name))) := by
  refine ⟨fun d hd => ?_, fun filterMode => ⟨fun clauses hclauses => ?_, fun hliterals => ?_⟩⟩
  · obtain ⟨c, hc, hbound⟩ := exists_bindCondition_of_bind_eq_left h d hd
    exact ⟨c, hc, hbound, onlyLiterals_of_bindCondition_eq_left hbound⟩
  · exact Predicate.onlyLiterals_of_compile_eq_ok hclauses
  · exact Predicate.compile_ne_unboundField hliterals

namespace Sample

/-- The visit is to the ward of the doctor or to the first ward. -/
def onEitherWard : Condition := .of "v.ward" .isIn [.field "d.ward", .literal (.str "one")]

end Sample

/-- The ward of the doctor takes the place of the field that the visit is compared with. -/
theorem onlyLiterals_of_bind_eq_left_sample :
    Sample.visits.bind Sample.doctor Sample.onWard =
        .ok (.left (.group .all [.group .all [.leaf (Condition.eq "ward" (.str "three")).orLeaf]])) ∧
      ∃ c ∈ Sample.onWard.conditions,
        Sample.visits.bindCondition c Sample.doctor =
          .ok (.left (.leaf (Condition.eq "ward" (.str "three")).orLeaf)) ∧
        Sample.visits.bindsToLiterals c = true := by
  have hbound : Sample.visits.bind Sample.doctor Sample.onWard =
    .ok (.left (.group .all [.group .all [.leaf (Condition.eq "ward" (.str "three")).orLeaf]])) := rfl
  obtain ⟨c, hc, hleaf, hliterals⟩ :=
    (onlyLiterals_of_bind_eq_left hbound).1 (Condition.eq "ward" (.str "three")).orLeaf
      List.mem_cons_self
  exact ⟨hbound, c, hc, hleaf, hliterals.symm⟩

/-- A field of the first table stays among several operands, and what is left cannot be compiled. -/
theorem bind_keeps_field :
    ∃ q, Sample.visits.bind Sample.doctor (.leaf Sample.onEitherWard) = .ok (.left q) ∧
      (∃ d ∈ q.conditions, d.onlyLiterals = false) ∧
      q.compile true = .error (.malformedPredicate "ward" (.unboundField "d.ward")) :=
  ⟨.leaf { Sample.onEitherWard with field := "ward" }, rfl, ⟨_, List.mem_cons_self, rfl⟩, rfl⟩

end Join

end SearchJoin
