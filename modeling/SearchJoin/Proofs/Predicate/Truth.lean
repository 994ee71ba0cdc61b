import SearchJoin.Predicate.Evaluate
import SearchJoin.Proofs.Except

/-!
# The truth of a predicate

The truth of a predicate follows from the truth of its conditions by one rule for groups: the children
that are connected by `all` have to hold; where there is none of them one of the others has to, unless
the group is empty.

Main statements: `Predicate.holds_eq_ok`, testing a predicate gives its truth;
`Predicate.truth_of_holds_eq_ok`, also where the test of a group leaves children out.
-/

namespace SearchJoin

@[simp] theorem Connector.all_beq_any : (Connector.all == Connector.any) = false := rfl

@[simp] theorem Connector.any_beq_all : (Connector.any == Connector.all) = false := rfl

/-- The truth of a group, from its children's connectors and truths. -/
def groupTruth (children : List (Connector × Bool)) : Bool :=
  if children.any fun child => child.1 == .all then
    children.all fun child => child.1 == .any || child.2
  else children.isEmpty || children.any fun child => child.2

/-- Alternatives among themselves: one of them has to hold. -/
theorem groupTruth_of_any {children : List (Connector × Bool)} (hne : children ≠ [])
    (h : ∀ child ∈ children, child.1 = .any) :
    groupTruth children = children.any fun child => child.2 := by
  have hnone : children.any (fun child => child.1 == .all) = false :=
    List.any_eq_false.2 fun child hchild => by simp [h child hchild]
  rw [groupTruth, hnone]
  simp [hne]

theorem groupTruth_singleton (connector : Connector) (truth : Bool) :
    groupTruth [(connector, truth)] = truth := by
  cases connector <;> simp [groupTruth]

/-- Children that are all connected by `all` all have to be true. -/
theorem groupTruth_of_all {children : List (Connector × Bool)}
    (h : ∀ child ∈ children, child.1 = .all) :
    groupTruth children = children.all fun child => child.2 := by
  cases children with
  | nil => rfl
  | cons child children =>
    have hfirst : (child :: children).any (fun child => child.1 == .all) = true := by
      simp [h child List.mem_cons_self]
    rw [groupTruth, if_pos hfirst, Bool.eq_iff_iff, List.all_eq_true, List.all_eq_true]
    refine forall₂_congr fun other hother => ?_
    simp [h other hother]

/-- The truth of a condition. One that cannot be tested does not hold. -/
def Condition.truth (lookUp : LookUp) (c : Condition) : Bool :=
  match c.holds lookUp with
  | .ok holds => holds
  | .error _ => false

theorem Condition.truth_of_holds_eq_ok {lookUp : LookUp} {c : Condition} {b : Bool}
    (h : c.holds lookUp = .ok b) : c.truth lookUp = b := by
  rw [truth, h]

namespace Predicate

mutual

/-- The truth of a predicate. -/
def truth (leaf : Condition → Bool) : Predicate → Bool
  | .leaf condition => leaf condition
  | .group _ children => groupTruth (truths leaf children)

/-- The connectors and truths of siblings. -/
def truths (leaf : Condition → Bool) : List Predicate → List (Connector × Bool)
  | [] => []
  | child :: children => (child.connector, truth leaf child) :: truths leaf children

end

theorem truths_eq_map (leaf : Condition → Bool) (children : List Predicate) :
    truths leaf children = children.map fun child => (child.connector, child.truth leaf) := by
  induction children with
  | nil => rfl
  | cons child children ih => rw [truths, ih, List.map_cons]

mutual

/-- The truth of a predicate depends on that of its conditions alone. -/
theorem truth_congr {leaf other : Condition → Bool} :
    (p : Predicate) → (∀ c ∈ p.conditions, leaf c = other c) → p.truth leaf = p.truth other
  | .leaf condition, h => h condition (by simp [conditions])
  | .group _ children, h => by rw [truth, truth, truths_congr children h]

theorem truths_congr {leaf other : Condition → Bool} :
    (children : List Predicate) → (∀ c ∈ conditionsOf children, leaf c = other c) →
      truths leaf children = truths other children
  | [], _ => rfl
  | child :: children, h => by
    rw [truths, truths, truth_congr child fun c hc => h c (by simp [conditionsOf, hc]),
      truths_congr children fun c hc => h c (by simp [conditionsOf, hc])]

end

/-- The truth of a group of which some children came before: `hasAll` says that one of them was
connected by `all`, and `anyHolds` whether one of the alternatives held, if there were any. -/
def groupTruthAfter (hasAll : Bool) (anyHolds : Option Bool) :
    List (Connector × Bool) → Bool
  | [] => hasAll || anyHolds.getD true
  | (.all, holds) :: children => holds && groupTruthAfter true anyHolds children
  | (.any, holds) :: children =>
    groupTruthAfter hasAll (some (anyHolds.getD false || holds)) children

/-- Past a child that is connected by `all` only such children count. -/
theorem groupTruthAfter_true (anyHolds : Option Bool) (children : List (Connector × Bool)) :
    groupTruthAfter true anyHolds children =
      children.all fun child => child.1 == .any || child.2 := by
  induction children generalizing anyHolds with
  | nil => rfl
  | cons child children ih =>
    obtain ⟨connector, holds⟩ := child
    cases connector <;> simp [groupTruthAfter, ih]

/-- Past alternatives they count as long as no child is connected by `all`. -/
theorem groupTruthAfter_some (held : Bool) (children : List (Connector × Bool)) :
    groupTruthAfter false (some held) children =
      if children.any fun child => child.1 == .all then
        children.all fun child => child.1 == .any || child.2
      else held || children.any fun child => child.2 := by
  induction children generalizing held with
  | nil => simp [groupTruthAfter]
  | cons child children ih =>
    obtain ⟨connector, holds⟩ := child
    cases connector with
    | all => simp [groupTruthAfter, groupTruthAfter_true]
    | any => simp [groupTruthAfter, ih, Bool.or_assoc]

/-- Before any child the truth is that of the whole group. -/
theorem groupTruthAfter_none (children : List (Connector × Bool)) :
    groupTruthAfter false none children = groupTruth children := by
  cases children with
  | nil => rfl
  | cons child children =>
    obtain ⟨connector, holds⟩ := child
    cases connector with
    | all => simp [groupTruthAfter, groupTruthAfter_true, groupTruth]
    | any => simp [groupTruthAfter, groupTruthAfter_some, groupTruth]

mutual

/-- A predicate whose conditions can all be tested has its truth as the result. -/
theorem holds_eq_ok {lookUp : Condition.LookUp} {leaf : Condition → Bool} :
    (p : Predicate) → (∀ c ∈ p.conditions, c.holds lookUp = .ok (leaf c)) →
      p.holds lookUp = .ok (p.truth leaf)
  | .leaf condition, h => h condition (by simp [conditions])
  | .group _ children, h => by
    rw [holds, groupHolds_eq_ok children h, groupTruthAfter_none, truth]

theorem groupHolds_eq_ok {lookUp : Condition.LookUp} {leaf : Condition → Bool} {hasAll : Bool}
    {anyHolds : Option Bool} :
    (children : List Predicate) →
      (∀ c ∈ conditionsOf children, c.holds lookUp = .ok (leaf c)) →
      groupHolds lookUp hasAll anyHolds children =
        .ok (groupTruthAfter hasAll anyHolds (truths leaf children))
  | [], _ => rfl
  | child :: children, h => by
    have hchild := holds_eq_ok child fun c hc => h c (by simp [conditionsOf, hc])
    have hrest : ∀ c ∈ conditionsOf children, c.holds lookUp = .ok (leaf c) :=
      fun c hc => h c (by simp [conditionsOf, hc])
    rw [groupHolds, hchild, ok_bind, truths]
    cases child.connector with
    | all =>
      simp only [groupTruthAfter]
      cases child.truth leaf with
      | false => rfl
      | true => exact groupHolds_eq_ok children hrest
    | any => exact groupHolds_eq_ok children hrest

end

mutual

/-- The result of a test is the truth of the predicate: a condition that the test leaves out cannot
change it, so it does not matter that the condition counts as false when it cannot be tested. -/
theorem truth_of_holds_eq_ok {lookUp : Condition.LookUp} :
    (p : Predicate) → {b : Bool} → p.holds lookUp = .ok b → p.truth (Condition.truth lookUp) = b
  | .leaf condition, _, h => Condition.truth_of_holds_eq_ok h
  | .group _ children, _, h => by
    rw [truth, ← groupTruthAfter_none, truth_of_groupHolds_eq_ok children h]

theorem truth_of_groupHolds_eq_ok {lookUp : Condition.LookUp} {hasAll : Bool}
    {anyHolds : Option Bool} :
    (children : List Predicate) → {b : Bool} →
      groupHolds lookUp hasAll anyHolds children = .ok b →
      groupTruthAfter hasAll anyHolds (truths (Condition.truth lookUp) children) = b
  | [], _, h => Except.ok.inj h
  | child :: children, b, h => by
    rw [groupHolds] at h
    obtain ⟨childHolds, hchild, h⟩ := bind_eq_ok.1 h
    rw [truths, truth_of_holds_eq_ok child hchild]
    cases hconnector : child.connector with
    | all =>
      simp only [hconnector] at h
      cases childHolds with
      | false => exact Except.ok.inj h
      | true => exact truth_of_groupHolds_eq_ok children h
    | any =>
      simp only [hconnector] at h
      exact truth_of_groupHolds_eq_ok children h

end

end Predicate

end SearchJoin
