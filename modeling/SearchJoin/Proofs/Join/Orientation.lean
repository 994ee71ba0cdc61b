import SearchJoin.Proofs.Join.Requests
import SearchJoin.Proofs.Predicate.Folding

/-!
# The order of the fields in the `ON` clause

A condition of the `ON` clause can be written from either table: to name its fields in the other order
and to turn its comparison around says the same. Joins that differ in nothing else have one strategy, are
checked alike and send the same requests.

Main statement: `Join.requests_withConditions`.
-/

namespace SearchJoin

namespace Condition

variable {c d : Condition}

/-- The condition with its fields in the other order, if it compares two fields in a way that can be turned
around. -/
def turned? (c : Condition) : Option Condition :=
  c.fieldOperand?.bind fun reference => c.operator.swapped?.map fun operator =>
    { c with field := reference, operator := operator, operands := [.field c.field] }

/-- The two are one condition, or one condition in its two orders. -/
def SameComparison (c d : Condition) : Prop := d = c ∨ c.turned? = some d

theorem exists_of_turned?_eq_some (h : c.turned? = some d) :
    ∃ reference operator, c.fieldOperand? = some reference ∧ c.operator.swapped? = some operator ∧
      { c with field := reference, operator := operator, operands := [.field c.field] } = d := by
  obtain ⟨reference, hreference, h⟩ := Option.bind_eq_some_iff.1 h
  obtain ⟨operator, hoperator, h⟩ := Option.map_eq_some_iff.1 h
  exact ⟨reference, operator, hreference, hoperator, h⟩

theorem turned?_turned? (h : c.turned? = some d) : d.turned? = some c := by
  obtain ⟨reference, operator, hreference, hoperator, rfl⟩ := exists_of_turned?_eq_some h
  have hoperands : c.operands = [.field reference] := operands_of_fieldOperand?_eq_some hreference
  have hback : operator.swapped? = some c.operator := Operator.swapped?_swapped? hoperator
  simp only [turned?, fieldOperand?, Option.bind_some, hback, Option.map_some, ← hoperands]

theorem SameComparison.symm (h : c.SameComparison d) : d.SameComparison c := by
  rcases h with rfl | h
  · exact .inl rfl
  · exact .inr (turned?_turned? h)

/-- In the other order an equality is one as well. -/
theorem SameComparison.operator_eq (h : c.SameComparison d) (hc : c.operator = .eq) :
    d.operator = .eq := by
  rcases h with rfl | h
  · exact hc
  · obtain ⟨_, operator, -, hoperator, rfl⟩ := exists_of_turned?_eq_some h
    rw [hc] at hoperator
    exact (Option.some.inj hoperator).symm

end Condition

namespace Join

variable {join : Join} {c d : Condition} {k : Connection} {conditions : List Condition}

/-- The join with another `ON` clause. -/
def withConditions (join : Join) (conditions : List Condition) : Join :=
  { join with conditions := conditions }

theorem table_withConditions (join : Join) (conditions : List Condition) (side : Side) :
    (join.withConditions conditions).table side = join.table side := by
  cases side <;> rfl

/-! ## What a condition asks of the second table -/

theorem connection?_of_turned?_eq_some (hturned : c.turned? = some d)
    (h : join.connection? c = some k) : join.connection? d = some k := by
  obtain ⟨reference, operator, hreference, hoperator, rfl⟩ :=
    Condition.exists_of_turned?_eq_some hturned
  obtain ⟨hscope, other, hother, hsides⟩ := exists_of_connection?_eq_some h
  obtain rfl : reference = other := Option.some.inj (hreference.symm.trans hother)
  have hback : operator.swapped? = some c.operator := Operator.swapped?_swapped? hoperator
  unfold connection?
  simp only [Condition.fieldOperand?, Option.bind_some]
  -- Whichever table the condition starts with, the turned one starts with the other.
  rcases hsides with ⟨hfield, hnamed, hsame⟩ | ⟨hfield, hnamed, hswapped⟩
  · rw [resolve_eq_ok_iff] at hfield hnamed
    simp only [hfield, hnamed, hback, Option.map_some, hsame, ← hscope]
  · rw [resolve_eq_ok_iff] at hfield hnamed
    obtain rfl : operator = k.operator := Option.some.inj (hoperator.symm.trans hswapped)
    simp only [hfield, hnamed, ← hscope]

theorem connection?_of_sameComparison (h : c.SameComparison d) :
    join.connection? d = join.connection? c := by
  rcases h with rfl | h
  · rfl
  · refine Option.ext fun k => ⟨fun hk => ?_, fun hk => ?_⟩
    · exact connection?_of_turned?_eq_some (Condition.turned?_turned? h) hk
    · exact connection?_of_turned?_eq_some h hk

theorem checkConnected_of_sameComparison (h : c.SameComparison d)
    (hcheck : join.checkConnected c = .ok ()) : join.checkConnected d = .ok () := by
  obtain ⟨k, hk⟩ := checkConnected_eq_ok_iff.1 hcheck
  exact checkConnected_eq_ok_iff.2 ⟨k, (connection?_of_sameComparison h).trans hk⟩

theorem isEmpty_conditions
    (h : List.Forall₂ Condition.SameComparison join.conditions conditions) :
    conditions.isEmpty = join.conditions.isEmpty := by
  generalize join.conditions = written at h
  cases h <;> rfl

theorem strategy_withConditions
    (h : List.Forall₂ Condition.SameComparison join.conditions conditions) :
    (join.withConditions conditions).strategy = join.strategy := by
  have hany : conditions.any (fun c => c.operator != .eq) =
      join.conditions.any (fun c => c.operator != .eq) := by
    generalize join.conditions = written at h
    induction h with
    | nil => rfl
    | cons hsame _ ih =>
      have hoperator := Iff.intro hsame.symm.operator_eq hsame.operator_eq
      rw [List.any_cons, List.any_cons, ih]
      simp [bne, beq_eq_decide, hoperator]
  have hnested : ((join.withConditions conditions).conditions.isEmpty ||
      (join.withConditions conditions).conditions.any fun c => c.operator != .eq) =
      (join.conditions.isEmpty || join.conditions.any fun c => c.operator != .eq) :=
    congrArg₂ or (isEmpty_conditions h) hany
  rw [strategy, strategy, hnested]
  rfl

end Join

namespace HashJoin

variable {join : Join} {c d : Condition} {pair : KeyPair} {conditions : List Condition}
  {options : JoinOptions}

theorem keyPair_of_sameComparison (h : c.SameComparison d) (hpair : keyPair join c = .ok pair) :
    keyPair join d = .ok pair := by
  have hoperator := operator_of_keyPair_eq_ok hpair
  have hconnection := connection?_of_keyPair_eq_ok hpair
  have hfields : join.connectedFields d = join.connectedFields c := by
    rw [Join.connectedFields_of_connection? hconnection,
      Join.connectedFields_of_connection? ((Join.connection?_of_sameComparison h).trans hconnection)]
  rw [← hpair, keyPair, keyPair, if_neg (not_not_intro hoperator),
    if_neg (not_not_intro (h.operator_eq hoperator)), hfields]

theorem ofJoin_withConditions {plan : HashJoin}
    (h : List.Forall₂ Condition.SameComparison join.conditions conditions)
    (hplan : ofJoin join options = .ok plan) :
    ofJoin (join.withConditions conditions) options =
      .ok { plan with join := join.withConditions conditions } := by
  obtain ⟨hempty, keys, hkeys, rfl⟩ := ofJoin_eq_ok_iff.1 hplan
  have hturned : conditions.mapM (keyPair join) = .ok keys :=
    mapM_eq_ok_of_forall₂ h (fun _ _ _ => keyPair_of_sameComparison) hkeys
  exact ofJoin_eq_ok_iff.2 ⟨(Join.isEmpty_conditions h).trans hempty, keys, hturned, rfl⟩

theorem sideRequest_withConditions (plan : HashJoin) (conditions : List Condition) (side : Side) :
    sideRequest { plan with join := plan.join.withConditions conditions } side =
      plan.sideRequest side := by
  cases side <;> rfl

theorem probeRequest_withConditions (plan : HashJoin) (conditions : List Condition)
    (table : KeyTable) :
    probeRequest { plan with join := plan.join.withConditions conditions } table =
      plan.probeRequest table := by
  unfold probeRequest
  rw [sideRequest_withConditions, Join.table_withConditions]
  rfl

end HashJoin

namespace Join

variable {join : Join} {row : Document} 

/-- Binding does not read the `ON` clause. -/
theorem bind_withConditions (conditions : List Condition) (p : Predicate) :
    (join.withConditions conditions).bind row p = join.bind row p :=
  bind_congr p fun _ _ => rfl

end Join

namespace NestedLoop

variable {join : Join} {c d : Condition} {k : Connection} {conditions : List Condition}
  {options : JoinOptions}

theorem exists_connection?_of_ofJoin_eq_ok {plan : NestedLoop}
    (h : ofJoin join options = .ok plan) : ∀ c ∈ join.conditions, ∃ k, join.connection? c = some k := by
  intro c hc
  obtain ⟨_, hchecks, -⟩ := bind_eq_ok.1 h
  obtain ⟨_, hcheck⟩ := exists_of_mapM_eq_ok hchecks hc
  exact Join.checkConnected_eq_ok_iff.1 hcheck

theorem ofJoin_withConditions {plan : NestedLoop}
    (h : List.Forall₂ Condition.SameComparison join.conditions conditions)
    (hplan : ofJoin join options = .ok plan) :
    ofJoin (join.withConditions conditions) options =
      .ok { plan with join := join.withConditions conditions } := by
  obtain ⟨units, hchecks, hplan⟩ := bind_eq_ok.1 hplan
  have hturned : conditions.mapM join.checkConnected = .ok units :=
    mapM_eq_ok_of_forall₂ h (fun _ _ _ => Join.checkConnected_of_sameComparison) hchecks
  rw [← pure_eq_ok.1 hplan]
  exact bind_eq_ok.2 ⟨units, hturned, rfl⟩

/-- A condition of the `ON` clause names one field of the first table. -/
theorem firstFields_of_connection? (h : join.connection? c = some k) :
    firstFields join c = [k.first] := by
  obtain ⟨-, reference, hreference, hsides⟩ := Join.exists_of_connection?_eq_some h
  rw [firstFields, hreference]
  rcases hsides with ⟨hfield, hnamed, -⟩ | ⟨hfield, hnamed, -⟩
  · rw [Join.resolve_eq_ok_iff] at hfield hnamed
    simp [hfield, hnamed]
  · rw [Join.resolve_eq_ok_iff] at hfield hnamed
    simp [hfield, hnamed]

theorem flatMap_firstFields {written : List Condition}
    (h : List.Forall₂ Condition.SameComparison written conditions)
    (hconnected : ∀ c ∈ written, ∃ k, join.connection? c = some k) :
    conditions.flatMap (firstFields join) = written.flatMap (firstFields join) := by
  induction h with
  | nil => rfl
  | cons hsame _ ih =>
    obtain ⟨⟨k, hk⟩, hconnected⟩ := List.forall_mem_cons.1 hconnected
    rw [List.flatMap_cons, List.flatMap_cons, ih hconnected, firstFields_of_connection? hk,
      firstFields_of_connection? ((Join.connection?_of_sameComparison hsame).trans hk)]

theorem boundConditions_of_sameComparison {written : List Condition} (others : List Condition)
    (h : List.Forall₂ Condition.SameComparison written conditions)
    (hconnected : ∀ c ∈ written, ∃ k, join.connection? c = some k) (row : Document) :
    boundConditions (join.withConditions others) row conditions =
      boundConditions join row written := by
  induction h with
  | nil => rfl
  | @cons c d _ _ hsame _ ih =>
    obtain ⟨⟨k, hk⟩, hconnected⟩ := List.forall_mem_cons.1 hconnected
    have hturned : (join.withConditions others).connection? d = some k :=
      (Join.connection?_of_sameComparison hsame).trans hk
    rw [boundConditions, boundConditions, ih hconnected, Join.bindConnected_of_connection? hk,
      Join.bindConnected_of_connection? hturned]

theorem driveRequest_withConditions (plan : NestedLoop)
    (h : List.Forall₂ Condition.SameComparison plan.join.conditions conditions)
    (hconnected : ∀ c ∈ plan.join.conditions, ∃ k, plan.join.connection? c = some k) :
    driveRequest { plan with join := plan.join.withConditions conditions } = plan.driveRequest := by
  have hfields : referencedFields (plan.join.withConditions conditions) =
      referencedFields plan.join := by
    unfold referencedFields
    rw [List.flatMap_append, List.flatMap_append, ← flatMap_firstFields h hconnected]
    rfl
  rw [driveRequest, driveRequest, hfields]
  rfl

theorem subRequest_withConditions (plan : NestedLoop)
    (h : List.Forall₂ Condition.SameComparison plan.join.conditions conditions)
    (hconnected : ∀ c ∈ plan.join.conditions, ∃ k, plan.join.connection? c = some k)
    (row : Document) :
    subRequest { plan with join := plan.join.withConditions conditions } row =
      plan.subRequest row := by
  have hfilter : boundFilter (plan.join.withConditions conditions) row =
      boundFilter plan.join row := by
    unfold boundFilter
    simp only [Join.bind_withConditions]
    rfl
  have hpredicates : subPredicates { plan with join := plan.join.withConditions conditions } row =
      plan.subPredicates row := by
    have hbound : boundConditions (plan.join.withConditions conditions) row
        (plan.join.withConditions conditions).conditions =
        boundConditions plan.join row plan.join.conditions :=
      boundConditions_of_sameComparison conditions h hconnected row
    unfold subPredicates
    rw [hbound, hfilter]
    rfl
  unfold subRequest
  rw [hpredicates]
  rfl

end NestedLoop

/-- The plans have the same keys and send the same requests. -/
structure HashJoin.SameRequests (plan other : HashJoin) : Prop where
  /-- The key fields, in their order. -/
  keys : other.keys = plan.keys
  /-- The requests of the two tables. -/
  sideRequest : ∀ side, other.sideRequest side = plan.sideRequest side
  /-- The request of the probed side, whatever the keys of the other side are. -/
  probeRequest : ∀ table, other.probeRequest table = plan.probeRequest table

/-- The plans send the same requests. -/
structure NestedLoop.SameRequests (plan other : NestedLoop) : Prop where
  /-- The request for the rows of the first table. -/
  driveRequest : other.driveRequest = plan.driveRequest
  /-- The request of the second table for each row, if there is one. -/
  subRequest : ∀ row, other.subRequest row = plan.subRequest row

namespace Join

variable {join : Join} {conditions : List Condition}

/-- In whichever order the conditions of the `ON` clause name their fields, the join has the same strategy;
either strategy accepts it or does not, and if it does, it sends the same requests. -/
theorem requests_withConditions
    (h : List.Forall₂ Condition.SameComparison join.conditions conditions) (options : JoinOptions) :
    (join.withConditions conditions).strategy = join.strategy ∧
      SameOutcome HashJoin.SameRequests (HashJoin.ofJoin join options)
        (HashJoin.ofJoin (join.withConditions conditions) options) ∧
      SameOutcome NestedLoop.SameRequests (NestedLoop.ofJoin join options)
        (NestedLoop.ofJoin (join.withConditions conditions) options) := by
  have hback : List.Forall₂ Condition.SameComparison
      (join.withConditions conditions).conditions join.conditions :=
    (h.imp fun _ _ hsame => hsame.symm).flip
  refine ⟨strategy_withConditions h, .of_imp ?_ ?_, .of_imp ?_ ?_⟩
  · intro plan hplan
    obtain ⟨keys, -, rfl⟩ := HashJoin.exists_keys_of_ofJoin_eq_ok hplan
    refine ⟨_, HashJoin.ofJoin_withConditions h hplan, rfl, ?_, ?_⟩
    · exact HashJoin.sideRequest_withConditions ⟨join, options, keys⟩ conditions
    · exact HashJoin.probeRequest_withConditions ⟨join, options, keys⟩ conditions
  · intro plan hplan
    have hjoin := HashJoin.ofJoin_withConditions hback hplan
    exact ⟨_, hjoin⟩
  · intro plan hplan
    have hconnected := NestedLoop.exists_connection?_of_ofJoin_eq_ok hplan
    obtain rfl := NestedLoop.eq_of_ofJoin_eq_ok hplan
    refine ⟨_, NestedLoop.ofJoin_withConditions h hplan, ?_, ?_⟩
    · exact NestedLoop.driveRequest_withConditions ⟨join, options⟩ h hconnected
    · exact NestedLoop.subRequest_withConditions ⟨join, options⟩ h hconnected
  · intro plan hplan
    have hjoin := NestedLoop.ofJoin_withConditions hback hplan
    exact ⟨_, hjoin⟩

namespace Sample

/-- Parcels and the depots of their region. -/
def parcels : Join where
  first := ⟨"p", "parcels", ["weight"], none, .empty⟩
  second := ⟨"d", "depots", [], none, .empty⟩
  conditions := [.fields "p.depot" .eq "d.id", .fields "p.region" .eq "d.region"]
  filter := none
  hints := []
  limit := none

/-- The second condition, from the other table. -/
def parcelsTurned : List Condition :=
  [.fields "p.depot" .eq "d.id", .fields "d.region" .eq "p.region"]

/-- The depots are probed. -/
def parcelsOptions : JoinOptions := ⟨100, 2, 1000, 1000, .first, none⟩

end Sample

/-- One of two conditions is turned around; the key fields stay in their order. -/
theorem requests_withConditions_sample :
    List.Forall₂ Condition.SameComparison Sample.parcels.conditions Sample.parcelsTurned ∧
      ∃ plan other,
        HashJoin.ofJoin Sample.parcels Sample.parcelsOptions = .ok plan ∧
        HashJoin.ofJoin (Sample.parcels.withConditions Sample.parcelsTurned) Sample.parcelsOptions =
          .ok other ∧
        other.keys = [⟨"depot", "id"⟩, ⟨"region", "region"⟩] ∧ plan.SameRequests other := by
  have hsame : List.Forall₂ Condition.SameComparison Sample.parcels.conditions
      Sample.parcelsTurned := .cons (.inl rfl) (.cons (.inr rfl) .nil)
  obtain ⟨-, hhash, -⟩ := requests_withConditions hsame Sample.parcelsOptions
  exact ⟨hsame, _, _, rfl, rfl, rfl, hhash⟩

end Join

end SearchJoin
