import SearchJoin.Predicate.Bind
import SearchJoin.Proofs.Predicate.Reading
import SearchJoin.Proofs.Predicate.Truth

/-!
# Folding constants keeps the truth

Binding a predicate to a row folds what the row decides. If every condition that can be bound keeps its
truth, whatever its truth is taken to be, so does every predicate that can be bound; and a predicate can
be bound when its conditions can.

Main statements: `Join.truth_of_bind_eq_ok`, `Join.exists_bind_eq_ok_truth`.
-/

namespace SearchJoin

/-- Groups inherit the property from their children. -/
def Predicate.GroupsInherit (P : Predicate → Prop) : Prop :=
  ∀ connector children, (∀ p ∈ children, P p) → P (.group connector children)

namespace Bound

/-- The truth of a bound predicate. -/
def truth (leaf : Condition → Bool) : Bound → Bool
  | .constant holds => holds
  | .left predicate => predicate.truth leaf

/-- What is left, if the row does not decide all, has the property. -/
def Leaves (P : Predicate → Prop) : Bound → Prop
  | .constant _ => True
  | .left predicate => P predicate

theorem leaves_of_forall {P : Predicate → Prop} (h : ∀ p, P p) (bound : Bound) : bound.Leaves P := by
  cases bound with
  | constant _ => trivial
  | left p => exact h p

/-- Tests a bound predicate on a document of the second table. -/
def holds (second : Document) : Bound → Except Error Bool
  | .constant holds => .ok holds
  | .left predicate => predicate.holds second.lookUp

theorem truth_of_holds_eq_ok {second : Document} {bound : Bound} {b : Bool}
    (h : bound.holds second = .ok b) : bound.truth (Condition.truth second.lookUp) = b := by
  cases bound with
  | constant holds => exact Except.ok.inj h
  | left predicate => exact Predicate.truth_of_holds_eq_ok predicate h

end Bound

namespace Join

namespace BoundGroup

variable {leaf : Condition → Bool}

/-- A group with one more bound child; none when the child decides that the group is false. -/
def add? (group : BoundGroup) : Connector → Bound → Option BoundGroup
  | .all, .constant false => none
  | .all, .constant true => some { group with hasAll := true }
  | .all, .left predicate =>
    some { group with hasAll := true, kept := group.kept ++ [predicate] }
  | .any, .constant holds => some { group with anyHolds := group.anyHolds || holds }
  | .any, .left predicate => some { group with alternatives := group.alternatives ++ [predicate] }

/-- What is left of children keeps their connectors. -/
structure Sorted (group : BoundGroup) : Prop where
  /-- The children that have to hold are connected by `all`. -/
  kept : ∀ p ∈ group.kept, p.connector = .all
  /-- The others are alternatives. -/
  alternatives : ∀ p ∈ group.alternatives, p.connector = .any

theorem Sorted.empty : Sorted {} := ⟨by simp, by simp⟩

theorem Sorted.of_add?_eq_some {group next : BoundGroup} {connector : Connector} {bound : Bound}
    (hsorted : group.Sorted) (hconnector : ∀ p, bound = .left p → p.connector = connector)
    (h : group.add? connector bound = some next) : next.Sorted := by
  cases connector with
  | all =>
    match bound with
    | .constant false => cases h
    | .constant true => cases h; exact ⟨hsorted.kept, hsorted.alternatives⟩
    | .left p =>
      cases h
      refine ⟨fun q hq => ?_, hsorted.alternatives⟩
      rcases List.mem_append.1 hq with hq | hq
      · exact hsorted.kept q hq
      · exact List.mem_singleton.1 hq ▸ hconnector p rfl
  | any =>
    match bound with
    | .constant _ => cases h; exact ⟨hsorted.kept, hsorted.alternatives⟩
    | .left p =>
      cases h
      refine ⟨hsorted.kept, fun q hq => ?_⟩
      rcases List.mem_append.1 hq with hq | hq
      · exact hsorted.alternatives q hq
      · exact List.mem_singleton.1 hq ▸ hconnector p rfl

/-- What is left of the children has the property. -/
def Leaves (P : Predicate → Prop) (group : BoundGroup) : Prop :=
  ∀ p ∈ group.kept ++ group.alternatives, P p

section Leaves

variable {P : Predicate → Prop}

theorem Leaves.of_add?_eq_some {group next : BoundGroup} {connector : Connector} {bound : Bound}
    (hgroup : group.Leaves P) (hbound : bound.Leaves P)
    (h : group.add? connector bound = some next) : next.Leaves P := by
  cases connector with
  | all =>
    match bound with
    | .constant false => cases h
    | .constant true => cases h; exact hgroup
    | .left p => cases h; simp_all [Leaves, Bound.Leaves, or_imp, forall_and]
  | any =>
    match bound with
    | .constant _ => cases h; exact hgroup
    | .left p => cases h; simp_all [Leaves, Bound.Leaves, or_imp, forall_and]

theorem leaves_regroup (hgroups : Predicate.GroupsInherit P) {connector : Connector}
    {predicates : List Predicate} {constant : Bool} (h : ∀ p ∈ predicates, P p) :
    (regroup connector predicates constant).Leaves P := by
  cases predicates with
  | nil => trivial
  | cons p predicates => exact hgroups connector (p :: predicates) h

theorem Leaves.toBound (hgroups : Predicate.GroupsInherit P) {group : BoundGroup}
    (h : group.Leaves P) (connector : Connector) (isEmpty : Bool) :
    (group.toBound connector isEmpty).Leaves P := by
  unfold BoundGroup.toBound
  split
  · exact leaves_regroup hgroups fun p hp => h p (List.mem_append_left _ hp)
  · split
    · trivial
    · exact leaves_regroup hgroups fun p hp => h p (List.mem_append_right _ hp)

end Leaves

/-- The truth of a group of which some children came before, which `group` says together. -/
def truthAfter (leaf : Condition → Bool) (group : BoundGroup) (isEmpty : Bool)
    (children : List (Connector × Bool)) : Bool :=
  if group.hasAll || children.any fun child => child.1 == .all then
    group.kept.all (fun p => p.truth leaf) && children.all fun child => child.1 == .any || child.2
  else
    group.anyHolds || isEmpty || group.alternatives.any (fun p => p.truth leaf) ||
      children.any fun child => child.2

/-- A bound child counts in the group as it would among the children that are left. -/
theorem truthAfter_of_add?_eq_some {group next : BoundGroup} {connector : Connector} {bound : Bound}
    (h : group.add? connector bound = some next) (isEmpty : Bool)
    (children : List (Connector × Bool)) :
    next.truthAfter leaf isEmpty children =
      group.truthAfter leaf isEmpty ((connector, bound.truth leaf) :: children) := by
  cases connector with
  | all =>
    match bound with
    | .constant false => cases h
    | .constant true => cases h; simp [truthAfter, Bound.truth]
    | .left p => cases h; simp [truthAfter, Bound.truth, Bool.and_assoc]
  | any =>
    match bound with
    | .constant holds =>
      cases h
      simp only [truthAfter, Bound.truth, List.any_cons, List.all_cons]
      cases holds <;> simp
    | .left p =>
      cases h
      simp only [truthAfter, Bound.truth, List.any_cons, List.all_cons, List.any_append]
      simp [Bool.or_assoc]

theorem truthAfter_of_add?_eq_none {group : BoundGroup} {connector : Connector} {bound : Bound}
    (h : group.add? connector bound = none) (isEmpty : Bool)
    (children : List (Connector × Bool)) :
    group.truthAfter leaf isEmpty ((connector, bound.truth leaf) :: children) = false := by
  cases connector with
  | all =>
    match bound with
    | .constant false => simp [truthAfter, Bound.truth]
    | .constant true => cases h
    | .left _ => cases h
  | any =>
    match bound with
    | .constant _ => cases h
    | .left _ => cases h

theorem truthAfter_empty (leaf : Condition → Bool) (children : List (Connector × Bool)) :
    truthAfter leaf {} children.isEmpty children = groupTruth children := by
  simp [truthAfter, groupTruth]

theorem truth_regroup {connector : Connector} {predicates : List Predicate} {constant truth : Bool}
    (hnil : predicates = [] → constant = truth)
    (hcons : predicates ≠ [] → groupTruth (Predicate.truths leaf predicates) = truth) :
    (regroup connector predicates constant).truth leaf = truth := by
  cases predicates with
  | nil => exact hnil rfl
  | cons p predicates => exact hcons (List.cons_ne_nil p predicates)

/-- The bound predicate that a group becomes says what its children say together. -/
theorem truth_toBound {group : BoundGroup} (hsorted : group.Sorted) (connector : Connector)
    (isEmpty : Bool) :
    (group.toBound connector isEmpty).truth leaf = group.truthAfter leaf isEmpty [] := by
  unfold toBound truthAfter
  cases group.hasAll with
  | true =>
    refine truth_regroup (fun hnil => by simp [hnil]) fun _ => ?_
    rw [Predicate.truths_eq_map, groupTruth_of_all (by simpa using hsorted.kept)]
    simp [Function.comp_def]
  | false =>
    cases group.anyHolds || isEmpty with
    | true => simp [Bound.truth]
    | false =>
      refine truth_regroup (fun hnil => by simp [hnil]) fun hne => ?_
      rw [Predicate.truths_eq_map,
        groupTruth_of_any (by simpa using hne) (by simpa using hsorted.alternatives)]
      simp [Function.comp_def]

end BoundGroup

variable {join : Join} {row : Document} {bound : Bound}

theorem bindChildren_cons (group : BoundGroup) (child : Predicate) (children : List Predicate) :
    bindChildren join row group (child :: children) = (do
      match group.add? child.connector (← bind join row child) with
      | some next => bindChildren join row next children
      | none => return none) := by
  rw [bindChildren]
  cases bind join row child with
  | error e => rfl
  | ok bound =>
    simp only [ok_bind]
    cases child.connector with
    | all =>
      match bound with
      | .constant false => rfl
      | .constant true => rfl
      | .left _ => rfl
    | any => cases bound <;> rfl

section Congr

variable {otherJoin : Join} {otherRow : Document}

mutual

/-- A predicate is bound alike where its conditions are. -/
theorem bind_congr : (p : Predicate) →
    (∀ c ∈ p.conditions, join.bindCondition c row = otherJoin.bindCondition c otherRow) →
      join.bind row p = otherJoin.bind otherRow p
  | .leaf c, hleaf => hleaf c (by simp [Predicate.conditions])
  | .group connector children, hleaf => by
    rw [bind, bind, bindChildren_congr children hleaf]

theorem bindChildren_congr : (children : List Predicate) →
    (∀ c ∈ Predicate.conditionsOf children,
      join.bindCondition c row = otherJoin.bindCondition c otherRow) →
      (group : BoundGroup) →
      join.bindChildren row group children = otherJoin.bindChildren otherRow group children
  | [], _, _ => rfl
  | child :: children, hleaf, group => by
    rw [Predicate.conditionsOf, List.forall_mem_append] at hleaf
    rw [bindChildren_cons, bindChildren_cons, bind_congr child hleaf.1]
    simp only [bindChildren_congr children hleaf.2]

end

end Congr

theorem exists_of_substitute_eq_left {c : Condition} {value : Option Value} {p : Predicate}
    (h : substitute c value = .left p) :
    ∃ x, p = .leaf { c with operands := [.literal x] } := by
  cases value with
  | none => cases h
  | some x => cases h; exact ⟨x, rfl⟩

theorem connector_of_regroup_eq_left {connector : Connector} {predicates : List Predicate}
    {constant : Bool} {p : Predicate} (h : regroup connector predicates constant = .left p) :
    p.connector = connector := by
  cases predicates with
  | nil => cases h
  | cons q predicates => cases h; rfl

/-- What is left of a condition is the condition on the bare field of the second table. If its operand was
a single field, a value stands in its place. -/
theorem exists_of_bindCondition_eq_left {c : Condition} {p : Predicate}
    (h : join.bindCondition c row = .ok (.left p)) :
    ∃ d, p = .leaf d ∧
      ((∃ name, join.resolve? c.field = some (.second, name) ∧ c.fieldOperand? = none ∧
          d = { c with field := name }) ∨
        (c.fieldOperand? ≠ none ∧ ∃ field operator x,
          d = { c with field := field, operator := operator, operands := [.literal x] })) := by
  obtain ⟨⟨side, name⟩, hfield, h⟩ := bind_eq_ok.1 h
  obtain ⟨other, hother, h⟩ := bind_eq_ok.1 h
  have hreference : other ≠ none → c.fieldOperand? ≠ none := by
    intro hsome hnone
    rw [hnone, Option.mapM_none, pure_eq_ok] at hother
    exact hsome hother.symm
  match side, other with
  | .second, none =>
    have hnone : c.fieldOperand? = none := by
      cases hoperand : c.fieldOperand? with
      | none => rfl
      | some reference =>
        rw [hoperand, Option.mapM_some] at hother
        obtain ⟨resolved, -, hother⟩ := bind_eq_ok.1 hother
        cases hother
    cases h
    exact ⟨_, rfl, .inl ⟨name, resolve_eq_ok_iff.1 hfield, hnone, rfl⟩⟩
  | .second, some (.first, other) =>
    obtain ⟨x, rfl⟩ := exists_of_substitute_eq_left (Except.ok.inj h)
    exact ⟨_, rfl, .inr ⟨hreference (by simp), name, c.operator, x, rfl⟩⟩
  | .second, some (.second, _) => cases h
  | .first, some (.second, other) =>
    cases hswapped : c.operator.swapped? with
    | none => simp only [hswapped] at h; cases h
    | some operator =>
      simp only [hswapped] at h
      obtain ⟨x, rfl⟩ := exists_of_substitute_eq_left (Except.ok.inj h)
      exact ⟨_, rfl, .inr ⟨hreference (by simp), other, operator, x, rfl⟩⟩
  | .first, none =>
    obtain ⟨_, -, h⟩ := bind_eq_ok.1 h
    cases h
  | .first, some (.first, _) =>
    obtain ⟨_, -, h⟩ := bind_eq_ok.1 h
    cases h

theorem connector_of_bindCondition_eq_ok {c : Condition} {p : Predicate}
    (h : join.bindCondition c row = .ok (.left p)) : p.connector = c.connector := by
  obtain ⟨d, rfl, ⟨name, -, -, rfl⟩ | ⟨-, field, operator, x, rfl⟩⟩ :=
    exists_of_bindCondition_eq_left h
  · rfl
  · rfl

/-- What is left of a predicate keeps its connector. -/
theorem connector_of_bind_eq_ok {p q : Predicate} (h : join.bind row p = .ok (.left q)) :
    q.connector = p.connector := by
  cases p with
  | leaf c => exact connector_of_bindCondition_eq_ok h
  | group connector children =>
    rw [bind] at h
    obtain ⟨group, -, h⟩ := bind_eq_ok.1 h
    cases group with
    | none => cases h
    | some group =>
      have hgroup : group.toBound connector children.isEmpty = .left q := Except.ok.inj h
      unfold BoundGroup.toBound at hgroup
      split at hgroup
      · exact connector_of_regroup_eq_left hgroup
      · split at hgroup
        · cases hgroup
        · exact connector_of_regroup_eq_left hgroup

section Run

variable {leaf before : Condition → Bool}

mutual

/-- When every condition that can be bound keeps its truth, so does a predicate. -/
theorem truth_of_bind_eq_ok :
    (p : Predicate) →
      (∀ c ∈ p.conditions, ∀ {b}, join.bindCondition c row = .ok b → b.truth leaf = before c) →
      {bound : Bound} → join.bind row p = .ok bound → bound.truth leaf = p.truth before
  | .leaf c, hleaf, _, h => hleaf c (by simp [Predicate.conditions]) h
  | .group connector children, hleaf, bound, h => by
    rw [bind] at h
    obtain ⟨result, hresult, h⟩ := bind_eq_ok.1 h
    obtain ⟨hsorted, hrun⟩ :=
      truth_of_bindChildren_eq_ok children hleaf .empty children.isEmpty hresult
    have hempty : children.isEmpty = (Predicate.truths before children).isEmpty := by
      cases children <;> rfl
    rw [Predicate.truth, ← BoundGroup.truthAfter_empty leaf, ← hempty, ← hrun]
    cases result with
    | none => cases h; rfl
    | some group =>
      rw [← pure_eq_ok.1 h]
      exact BoundGroup.truth_toBound (hsorted group rfl) connector children.isEmpty

theorem truth_of_bindChildren_eq_ok :
    (children : List Predicate) →
      (∀ c ∈ Predicate.conditionsOf children, ∀ {b}, join.bindCondition c row = .ok b →
        b.truth leaf = before c) →
      {group : BoundGroup} → group.Sorted → (isEmpty : Bool) → {result : Option BoundGroup} →
      bindChildren join row group children = .ok result →
      (∀ last ∈ result, last.Sorted) ∧
        result.elim false (fun last => last.truthAfter leaf isEmpty []) =
          group.truthAfter leaf isEmpty (Predicate.truths before children)
  | [], _, group, hsorted, isEmpty, _, h => by
    rw [bindChildren] at h
    cases h
    exact ⟨fun last hlast => Option.some.inj hlast ▸ hsorted, rfl⟩
  | child :: children, hleaf, group, hsorted, isEmpty, result, h => by
    rw [bindChildren_cons] at h
    obtain ⟨bound, hbound, h⟩ := bind_eq_ok.1 h
    have hchild := truth_of_bind_eq_ok child
      (fun c hc => hleaf c (by simp [Predicate.conditionsOf, hc])) hbound
    rw [Predicate.truths, ← hchild]
    cases hadd : group.add? child.connector bound with
    | none =>
      simp only [hadd] at h
      rw [← pure_eq_ok.1 h, BoundGroup.truthAfter_of_add?_eq_none hadd]
      exact ⟨by simp, rfl⟩
    | some next =>
      simp only [hadd] at h
      have hnext : next.Sorted := hsorted.of_add?_eq_some
        (fun q hq => connector_of_bind_eq_ok (hq ▸ hbound)) hadd
      rw [← BoundGroup.truthAfter_of_add?_eq_some hadd]
      exact truth_of_bindChildren_eq_ok children
        (fun c hc => hleaf c (by simp [Predicate.conditionsOf, hc])) hnext isEmpty h

end

end Run

section Leaves

variable {P : Predicate → Prop}

mutual

/-- When what is left of each condition has a property that groups inherit, the same goes for what is left
of a predicate. -/
theorem leaves_of_bind_eq_ok (hgroups : Predicate.GroupsInherit P) :
    (p : Predicate) →
      (∀ c ∈ p.conditions, ∀ {b}, join.bindCondition c row = .ok b → b.Leaves P) →
      {bound : Bound} → join.bind row p = .ok bound → bound.Leaves P
  | .leaf c, hleaf, _, h => hleaf c (by simp [Predicate.conditions]) h
  | .group connector children, hleaf, bound, h => by
    rw [bind] at h
    obtain ⟨result, hresult, h⟩ := bind_eq_ok.1 h
    have hlast := leaves_of_bindChildren_eq_ok hgroups children hleaf
      (by simp [BoundGroup.Leaves]) hresult
    cases result with
    | none => cases h; trivial
    | some group =>
      rw [← pure_eq_ok.1 h]
      exact (hlast group rfl).toBound hgroups connector children.isEmpty

theorem leaves_of_bindChildren_eq_ok (hgroups : Predicate.GroupsInherit P) :
    (children : List Predicate) →
      (∀ c ∈ Predicate.conditionsOf children, ∀ {b}, join.bindCondition c row = .ok b →
        b.Leaves P) →
      {group : BoundGroup} → group.Leaves P → {result : Option BoundGroup} →
      bindChildren join row group children = .ok result → ∀ last ∈ result, last.Leaves P
  | [], _, group, hgroup, _, h => by
    rw [bindChildren] at h
    cases h
    exact fun last hlast => Option.some.inj hlast ▸ hgroup
  | child :: children, hleaf, group, hgroup, result, h => by
    rw [bindChildren_cons] at h
    obtain ⟨bound, hbound, h⟩ := bind_eq_ok.1 h
    have hchild := leaves_of_bind_eq_ok hgroups child
      (fun c hc => hleaf c (by simp [Predicate.conditionsOf, hc])) hbound
    cases hadd : group.add? child.connector bound with
    | none =>
      simp only [hadd] at h
      rw [← pure_eq_ok.1 h]
      simp
    | some next =>
      simp only [hadd] at h
      exact leaves_of_bindChildren_eq_ok hgroups children
        (fun c hc => hleaf c (by simp [Predicate.conditionsOf, hc]))
        (hgroup.of_add?_eq_some hchild hadd) h

end

end Leaves

mutual

/-- A predicate can be bound when each of its conditions can. -/
theorem exists_bind_of_conditions :
    (p : Predicate) → (∀ c ∈ p.conditions, ∃ bound, join.bindCondition c row = .ok bound) →
      ∃ bound, join.bind row p = .ok bound
  | .leaf c, hleaf => hleaf c (by simp [Predicate.conditions])
  | .group connector children, hleaf => by
    obtain ⟨result, hresult⟩ := exists_bindChildren_of_conditions children hleaf {}
    rw [bind, hresult, ok_bind]
    cases result with
    | none => exact ⟨_, rfl⟩
    | some group => exact ⟨_, rfl⟩

theorem exists_bindChildren_of_conditions :
    (children : List Predicate) →
      (∀ c ∈ Predicate.conditionsOf children, ∃ bound, join.bindCondition c row = .ok bound) →
      (group : BoundGroup) → ∃ result, bindChildren join row group children = .ok result
  | [], _, group => ⟨some group, rfl⟩
  | child :: children, hleaf, group => by
    obtain ⟨bound, hbound⟩ :=
      exists_bind_of_conditions child fun c hc => hleaf c (by simp [Predicate.conditionsOf, hc])
    rw [bindChildren_cons, hbound, ok_bind]
    cases group.add? child.connector bound with
    | none => exact ⟨none, rfl⟩
    | some next =>
      exact exists_bindChildren_of_conditions children
        (fun c hc => hleaf c (by simp [Predicate.conditionsOf, hc])) next

end

/-- When each condition of a predicate can be bound and what is left of it has a property that groups
inherit, the same goes for the predicate. -/
theorem exists_bind_leaves {P : Predicate → Prop} (hgroups : Predicate.GroupsInherit P) (p : Predicate)
    (hleaf : ∀ c ∈ p.conditions, ∃ bound, join.bindCondition c row = .ok bound ∧ bound.Leaves P) :
    ∃ bound, join.bind row p = .ok bound ∧ bound.Leaves P := by
  obtain ⟨bound, hbound⟩ :=
    exists_bind_of_conditions p fun c hc => (hleaf c hc).imp fun _ => And.left
  refine ⟨bound, hbound, leaves_of_bind_eq_ok hgroups p (fun c hc b hb => ?_) hbound⟩
  obtain ⟨other, hother, hleaves⟩ := hleaf c hc
  rw [hother] at hb
  cases hb
  exact hleaves

/-- The truth of what a condition is bound to. One that cannot be bound does not hold. -/
def boundLeaf (join : Join) (row : Document) (leaf : Condition → Bool) (c : Condition) : Bool :=
  match join.bindCondition c row with
  | .ok bound => bound.truth leaf
  | .error _ => false

/-- When each condition of a predicate can be bound to a row, so can the predicate. Whatever the truth
of the conditions on the second table is, what is left has the truth that the predicate has when each
of its conditions has the truth of what it is bound to. -/
theorem exists_bind_eq_ok_truth {p : Predicate}
    (hleaf : ∀ c ∈ p.conditions, ∃ bound, join.bindCondition c row = .ok bound) :
    ∃ bound, join.bind row p = .ok bound ∧
      ∀ leaf, bound.truth leaf = p.truth (join.boundLeaf row leaf) := by
  obtain ⟨bound, hbound, -⟩ := exists_bind_leaves (P := fun _ => True) (fun _ _ _ => trivial) p
    fun c hc => (hleaf c hc).imp fun other hother => ⟨hother, other.leaves_of_forall fun _ => trivial⟩
  refine ⟨bound, hbound, fun leaf => truth_of_bind_eq_ok p (fun c _ other hother => ?_) hbound⟩
  rw [boundLeaf, hother]

namespace Sample

/-- Doctors and the visits to them. -/
def visits : Join where
  first := ⟨"d", "doctors", [], none, .empty⟩
  second := ⟨"v", "visits", [], none, .empty⟩
  conditions := [.fields "d.id" .eq "v.doctor"]
  filter := none
  hints := []
  limit := none

/-- A doctor of the third ward who is present. -/
def doctor : Document := ⟨"", "doctors", .ofList [("away", .bool false), ("ward", .str "three")]⟩

/-- The doctor is present, and the visit is to the ward of the doctor unless that is the first ward. The
last condition does not count beside the others. -/
def onWard : Predicate :=
  .group .all [
    .leaf (Condition.eq "d.away" (.bool false)),
    .group .all [
      .leaf (Condition.eq "d.ward" (.str "one")).orLeaf,
      .leaf (Condition.fields "v.ward" .eq "d.ward").orLeaf],
    .leaf (Condition.eq "v.urgent" (.bool true)).orLeaf]

end Sample

/-- The doctor's own conditions are folded away, with the alternative beside them. -/
theorem exists_bind_eq_ok_truth_sample :
    (∀ c ∈ Sample.onWard.conditions,
        ∃ bound, Sample.visits.bindCondition c Sample.doctor = .ok bound) ∧
      Sample.visits.bind Sample.doctor Sample.onWard =
        .ok (.left (.group .all [.group .all [
          .leaf (Condition.eq "ward" (.str "three")).orLeaf]])) ∧
      ∀ leaf, leaf (Condition.eq "ward" (.str "three")).orLeaf =
        Sample.onWard.truth (Sample.visits.boundLeaf Sample.doctor leaf) := by
  have hleaf : ∀ c ∈ Sample.onWard.conditions,
      ∃ bound, Sample.visits.bindCondition c Sample.doctor = .ok bound := by
    intro c hc
    rcases List.mem_cons.1 hc with rfl | hc
    · exact ⟨.constant true, rfl⟩
    rcases List.mem_cons.1 hc with rfl | hc
    · exact ⟨.constant false, rfl⟩
    rcases List.mem_cons.1 hc with rfl | hc
    · exact ⟨_, rfl⟩
    rw [List.mem_singleton.1 hc]
    exact ⟨_, rfl⟩
  obtain ⟨bound, hbound, htruth⟩ := exists_bind_eq_ok_truth hleaf
  have hresidue : Sample.visits.bind Sample.doctor Sample.onWard =
      .ok (.left (.group .all [.group .all [
        .leaf (Condition.eq "ward" (.str "three")).orLeaf]])) := rfl
  refine ⟨hleaf, hresidue, fun leaf => ?_⟩
  rw [hbound] at hresidue
  rw [← htruth leaf, Except.ok.inj hresidue]
  simp [Bound.truth, Predicate.truth, Predicate.truths, groupTruth_singleton]

end Join

end SearchJoin
