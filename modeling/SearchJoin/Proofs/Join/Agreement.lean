import Mathlib.Data.List.Perm.Basic
import SearchJoin.Proofs.Join.KeyPart
import SearchJoin.Proofs.Join.Nesting
import SearchJoin.Proofs.Join.Requests

/-!
# Both strategies give the same rows

On a backend that holds documents and finds the ones that a query selects, a hash join on equalities
and a nested loop both give the join of the two tables on exactly equal key fields. The rows come in
the order of the first table, unless the hash join builds its keys from that table.

Main statement: `Join.run_session_perm`.
-/

namespace SearchJoin

/-- A query on a document: a field equals a value exactly, and `other` tests all further queries. -/
def Query.matchesExactly (other : Query → Document → Bool) (doc : Document) : Query → Bool
  | .term field value => (doc.get? field).any fun held => held.exactly value
  | .terms field values =>
    (doc.get? field).any fun held => values.any fun value => held.exactly value
  | query => other query doc

/-- The documents that a table's own filter selects, in their order. -/
def Table.selected (other : Query → Document → Bool) (table : Table) (docs : List Document) :
    List Document :=
  docs.filter fun doc => table.selects (Query.matchesExactly other doc)

/-- The backend holds the documents `stored` of each index. A request finds those that its query
selects, in their order, when its size is no less than their number; each of several requests that are
sent together is answered like a single one. -/
structure Backend.Holds (backend : Backend) (stored : String → List Document)
    (other : Query → Document → Bool) (found : Request → List Document) : Prop where
  /-- Single searches are answered. -/
  search : ∀ calls request, ∃ total, backend.search calls request = .ok ⟨total, found request⟩
  /-- Searches that are sent together are answered. -/
  findsEach : backend.FindsEach found
  /-- What is found. -/
  found_eq : ∀ request size, request.from? = none → request.size = some size →
    (stored request.index).length ≤ size.toNat →
    found request = (stored request.index).filter fun doc =>
      request.query.selects (Query.matchesExactly other doc)

/-- The documents have equal values in a pair of key fields. -/
def KeyPair.agree (first second : Document) (pair : KeyPair) : Bool :=
  match first.get? pair.first, second.get? pair.second with
  | some a, some b => a.exactly b
  | _, _ => false

namespace Join

/-- The row of two documents that agree in all key fields. -/
def exactRow? (join : Join) (keys : List KeyPair) (a b : Document) : Option Row :=
  if keys.all (KeyPair.agree a b) then some (join.mergePair (a, b)) else none

/-- The join of documents of the two tables on exactly equal key fields. -/
def exactJoin (join : Join) (keys : List KeyPair) (first second : List Document) : List Row :=
  first.flatMap fun a => second.filterMap (join.exactRow? keys a)

end Join

/-- The rows of two lists that are put together in the order of the one and in that of the other. -/
theorem flatMap_filterMap_perm {α β γ : Type} (xs : List α) (ys : List β) (f : α → β → Option γ) :
    (xs.flatMap fun x => ys.filterMap (f x)).Perm
      (ys.flatMap fun y => xs.filterMap fun x => f x y) := by
  induction xs with
  | nil => simp
  | cons x xs ih =>
    have hcons : (fun y => (x :: xs).filterMap fun x => f x y) =
        fun y => (f x y).toList ++ xs.filterMap fun x => f x y := by
      funext y
      cases hy : f x y <;> simp [hy]
    rw [List.flatMap_cons, hcons, List.filterMap_eq_flatMap_toList]
    exact (ih.append_left _).trans (List.flatMap_append_perm ys _ _)

/-! ## Keys and equal fields -/

theorem KeyPair.exists_part_iff_agree {a b : Document} {pair : KeyPair}
    (hbelow : ∀ v, a.get? pair.first = some v → v.belowSignedLimit = true) :
    (∃ part, (a.get? pair.first).bind KeyPart.ofValue? = some part ∧
      (b.get? pair.second).bind KeyPart.ofValue? = some part) ↔ pair.agree a b = true := by
  unfold KeyPair.agree
  cases ha : a.get? pair.first with
  | none => simp
  | some v =>
    cases hb : b.get? pair.second with
    | none => simp
    | some w => exact KeyPart.exists_part_iff_exactly (hbelow v ha)

/-- Documents have the same key when all key fields agree. -/
theorem exists_key_iff_agree {a b : Document} {keys : List KeyPair}
    (hbelow : ∀ pair ∈ keys, ∀ v, a.get? pair.first = some v → v.belowSignedLimit = true) :
    (∃ key, Key.ofDocument? (keys.map fun pair => pair.first) a = some key ∧
      Key.ofDocument? (keys.map fun pair => pair.second) b = some key) ↔
      keys.all (KeyPair.agree a b) = true := by
  simp only [Key.ofDocument?, mapM_eq_some_iff, List.forall₂_map_left_iff]
  induction keys with
  | nil => simp
  | cons pair keys ih =>
    obtain ⟨hpair, hkeys⟩ := List.forall_mem_cons.1 hbelow
    rw [List.all_cons, Bool.and_eq_true, ← KeyPair.exists_part_iff_agree hpair, ← ih hkeys]
    constructor
    · rintro ⟨key, ha, hb⟩
      cases ha with
      | cons hpart ha =>
        cases hb with
        | cons hpart' hb => exact ⟨⟨_, hpart, hpart'⟩, _, ha, hb⟩
    · rintro ⟨⟨part, hpart, hpart'⟩, key, ha, hb⟩
      exact ⟨part :: key, .cons hpart ha, .cons hpart' hb⟩

/-- Fields agree when the second has the value of the first, as far as one can compare with it. -/
theorem KeyPair.any_bindable_eq_agree (other : Query → Document → Bool) (a b : Document)
    (pair : KeyPair) :
    ((Join.bindable? a pair.first).any fun value =>
      (Query.term pair.second value).selects (Query.matchesExactly other b)) =
      pair.agree a b := by
  have hterm : ∀ value, (Query.term pair.second value).selects (Query.matchesExactly other b) =
      (b.get? pair.second).any fun held => held.exactly value := fun _ => rfl
  simp only [hterm]
  unfold KeyPair.agree Join.bindable?
  cases a.get? pair.first with
  | none => rfl
  | some v =>
    cases b.get? pair.second with
    | none => simp
    | some w =>
      have hscalar : v.isScalar = false → v.exactly w = false := by
        obtain ⟨json, normal⟩ := v
        cases json <;> simp [Value.isScalar, Value.exactly]
      by_cases hv : v.isScalar = true
      · simp [Option.filter, hv, Value.exactly_comm w v]
      · rw [Bool.not_eq_true] at hv
        simp [Option.filter, hv, hscalar hv]

section

variable {backend : Backend} {stored : String → List Document}
  {other : Query → Document → Bool} {found : Request → List Document}

theorem Backend.Holds.hits_eq (hholds : backend.Holds stored other found) {calls : List Call}
    {request : Request} {hits : Hits} (hsearch : backend.search calls request = .ok hits) :
    hits.hits = found request := by
  obtain ⟨total, htotal⟩ := hholds.search calls request
  rw [htotal] at hsearch
  cases hsearch
  rfl

/-- A request of a table finds those documents that the table's own filter selects and that satisfy
what its query asks for besides. -/
theorem Backend.Holds.found_of_selects (hholds : backend.Holds stored other found) {table : Table}
    {request : Request} {size : UInt64} (further : (Query → Bool) → Bool)
    (hindex : request.index = table.index) (hfrom : request.from? = none)
    (hsize : request.size = some size) (hlength : (stored table.index).length ≤ size.toNat)
    (hselects : ∀ leaf, request.query.selects leaf = (table.selects leaf && further leaf)) :
    found request = (table.selected other (stored table.index)).filter fun doc =>
      further (Query.matchesExactly other doc) := by
  rw [← hindex] at hlength
  rw [hholds.found_eq request size hfrom hsize hlength, hindex, Table.selected, List.filter_filter]
  refine List.filter_congr fun doc _ => ?_
  rw [hselects, Bool.and_comm]

theorem Backend.Holds.found_of_request (hholds : backend.Holds stored other found) {table : Table}
    {request : Request} {size : UInt64} {names : List String}
    (hrequest : table.request size names = .ok request)
    (hlength : (stored table.index).length ≤ size.toNat) :
    found request = table.selected other (stored table.index) := by
  obtain ⟨hindex, hfrom, hsize, hselects⟩ := Table.selects_request hrequest
  have hfound := hholds.found_of_selects (fun _ => true) hindex hfrom hsize hlength
    fun leaf => by rw [hselects leaf, Bool.and_true]
  rw [hfound, List.filter_true]

/-! ## The nested loop -/

namespace NestedLoop

variable {plan : NestedLoop} {keys : List KeyPair}

/-- The documents that a sub-query finds are those that agree with its row. -/
theorem found_of_subRequest (hholds : backend.Holds stored other found)
    (hkeys : plan.join.OnKeys keys)
    (hlength : (stored plan.join.second.index).length ≤ plan.options.secondLimit.toNat)
    {row : Document} {request : Request} (hsub : plan.subRequest row = .ok (some request)) :
    found request = (plan.join.second.selected other (stored plan.join.second.index)).filter
      fun doc => keys.all (KeyPair.agree row doc) := by
  obtain ⟨hindex, hfrom, hsize, hselects⟩ := selects_subRequest hkeys hsub
  rw [hholds.found_of_selects _ hindex hfrom hsize hlength hselects]
  refine List.filter_congr fun doc _ => ?_
  simp only [KeyPair.any_bindable_eq_agree]

/-- A row that has no sub-query agrees with no document. -/
theorem agree_of_subRequest_eq_none (hkeys : plan.join.OnKeys keys) {row : Document}
    (hsub : plan.subRequest row = .ok none) (doc : Document) :
    keys.all (KeyPair.agree row doc) = false := by
  obtain ⟨pair, hmem, hnone⟩ := exists_of_subRequest_eq_none hkeys hsub
  refine List.all_eq_false.2 ⟨pair, hmem, ?_⟩
  rw [← KeyPair.any_bindable_eq_agree fun _ _ => false, hnone]
  simp

/-- The rows of a nested loop are the join on exactly equal key fields. -/
theorem loopRows_eq_exactJoin (hholds : backend.Holds stored other found)
    (hkeys : plan.join.OnKeys keys)
    (hlength : (stored plan.join.second.index).length ≤ plan.options.secondLimit.toNat)
    {rows : List Document} (hsub : ∀ row ∈ rows, ∃ sub, plan.subRequest row = .ok sub) :
    plan.loopRows found rows = plan.join.exactJoin keys rows
      (plan.join.second.selected other (stored plan.join.second.index)) := by
  unfold loopRows Join.exactJoin
  induction rows with
  | nil => rfl
  | cons row rows ih =>
    obtain ⟨⟨sub, hrow⟩, hrows⟩ := List.forall_mem_cons.1 hsub
    rw [List.flatMap_cons, ← ih hrows, matchable, List.filterMap_cons, hrow]
    cases sub with
    | none =>
      have hnone : (plan.join.second.selected other (stored plan.join.second.index)).filterMap
          (plan.join.exactRow? keys row) = [] := by
        refine List.filterMap_eq_nil_iff.2 fun b _ => ?_
        rw [Join.exactRow?, agree_of_subRequest_eq_none hkeys hrow b]
        rfl
      rw [hnone, List.nil_append]
      rfl
    | some request =>
      rw [List.flatMap_cons]
      simp only [found_of_subRequest hholds hkeys hlength hrow]
      rw [← List.filterMap_eq_map', List.filterMap_filter]
      rfl

end NestedLoop

/-! ## The hash join -/

namespace HashJoin

variable {plan : HashJoin} {build probe : List Document}

/-- The choices of the probe let every row through that has the key of a build row. -/
theorem all_choices_of_sameKey {p b : Document} (hb : b ∈ build) (hsame : plan.SameKey p b) :
    (plan.choices (plan.buildTable build)).all (Query.selects (Query.matchesExactly other p)) =
      true := by
  obtain ⟨key, hprobe, hbuild⟩ := hsame
  have hmem : key ∈ (plan.buildTable build).keys := KeyTable.mem_keys_ofDocuments.2 ⟨b, hb, hbuild⟩
  rw [List.all_eq_true]
  intro choice hchoice
  obtain ⟨field, held, part, parts, rfl, hheld, hpart, hlisted⟩ :=
    exists_part_of_mem_choices hprobe hmem hchoice
  refine (Option.any_eq_true _ _).2 ⟨held, hheld, ?_⟩
  exact List.any_eq_true.2 ⟨_, List.mem_map_of_mem hlisted, KeyPart.exactly_toValue hpart⟩

/-- Rows that nothing is joined with may be left out of the probe. -/
theorem equiJoin_filter {test : Document → Bool}
    (htest : ∀ p, ∀ b ∈ build, plan.SameKey p b → test p = true) :
    plan.equiJoin build (probe.filter test) = plan.equiJoin build probe := by
  unfold equiJoin
  induction probe with
  | nil => rfl
  | cons p probe ih =>
    rw [List.flatMap_cons, ← ih]
    by_cases hp : test p = true
    · rw [List.filter_cons_of_pos hp, List.flatMap_cons]
    · rw [List.filter_cons_of_neg hp, List.filterMap_eq_nil_iff.2, List.nil_append]
      intro b hb
      rw [if_neg]
      rintro ⟨hsame, -⟩
      exact hp (htest p b hb hsame)

theorem sameKey_iff_agree {p b : Document}
    (hbelow : ∀ pair ∈ plan.keys, ∀ v, (plan.orient b p).1.get? pair.first = some v →
      v.belowSignedLimit = true) :
    plan.SameKey p b ↔
      plan.keys.all (KeyPair.agree (plan.orient b p).1 (plan.orient b p).2) = true := by
  rw [← exists_key_iff_agree hbelow]
  unfold SameKey keyOf? keyFields probeSide orient
  cases plan.options.buildSide with
  | first => exact exists_congr fun key => And.comm
  | second => rfl

theorem row_eq_exactRow? {p b : Document} (hfilter : plan.join.filter = none)
    (hbelow : ∀ pair ∈ plan.keys, ∀ v, (plan.orient b p).1.get? pair.first = some v →
      v.belowSignedLimit = true) :
    (if plan.SameKey p b ∧ plan.join.selectsPair (plan.orient b p) then
      some (plan.join.mergePair (plan.orient b p)) else none) =
      plan.join.exactRow? plan.keys (plan.orient b p).1 (plan.orient b p).2 := by
  have hpair : plan.join.selectsPair (plan.orient b p) = true := by
    rw [Join.selectsPair, hfilter]
  rw [Join.exactRow?]
  simp only [sameKey_iff_agree hbelow, hpair, and_true]

/-- Built from the second table, a hash join gives the rows in the order of the first. -/
theorem equiJoin_eq_exactJoin (hside : plan.options.buildSide = .second)
    (hfilter : plan.join.filter = none)
    (hbelow : ∀ doc ∈ probe, ∀ pair ∈ plan.keys, ∀ v, doc.get? pair.first = some v →
      v.belowSignedLimit = true) :
    plan.equiJoin build probe = plan.join.exactJoin plan.keys probe build := by
  unfold equiJoin Join.exactJoin
  refine List.flatMap_congr fun p hp => List.filterMap_congr fun b _ => ?_
  have horient : plan.orient b p = (p, b) := by rw [orient, hside]
  have hrow := row_eq_exactRow? (p := p) (b := b) hfilter (by rw [horient]; exact hbelow p hp)
  rw [hrow, horient]

/-- Built from the first table, it gives the same rows in the order of the second. -/
theorem equiJoin_perm_exactJoin (hside : plan.options.buildSide = .first)
    (hfilter : plan.join.filter = none)
    (hbelow : ∀ doc ∈ build, ∀ pair ∈ plan.keys, ∀ v, doc.get? pair.first = some v →
      v.belowSignedLimit = true) :
    (plan.equiJoin build probe).Perm (plan.join.exactJoin plan.keys build probe) := by
  have hrows : plan.equiJoin build probe =
      probe.flatMap fun p => build.filterMap fun b => plan.join.exactRow? plan.keys b p := by
    unfold equiJoin
    refine List.flatMap_congr fun p _ => List.filterMap_congr fun b hb => ?_
    have horient : plan.orient b p = (b, p) := by rw [orient, hside]
    have hrow := row_eq_exactRow? (p := p) (b := b) hfilter (by rw [horient]; exact hbelow b hb)
    rw [hrow, horient]
  rw [hrows]
  exact flatMap_filterMap_perm probe build fun p b => plan.join.exactRow? plan.keys b p

/-- The rows of a hash join without a limit, on a backend that holds documents, are those of the
documents that the own filters of the tables select. -/
theorem eq_equiJoin_of_holds (hholds : backend.Holds stored other found) {calls : List Call}
    {rows : List Row} (hrun : (plan.session.run backend calls).1 = .ok rows)
    (hlimit : plan.options.totalLimit = none)
    (hlength : ∀ side, (stored (plan.join.table side).index).length ≤
      (plan.options.limit side).toNat) :
    rows = plan.equiJoin
      ((plan.join.table plan.options.buildSide).selected other
        (stored (plan.join.table plan.options.buildSide).index))
      ((plan.join.table plan.probeSide).selected other
        (stored (plan.join.table plan.probeSide).index)) := by
  obtain ⟨request, build, hrequest, hbuild, hcases⟩ :=
    exists_of_run_session_eq_ok (by simp [hlimit]) hrun
  rw [← hholds.found_of_request hrequest (hlength _), ← hholds.hits_eq hbuild]
  rcases hcases with ⟨hempty, rfl⟩ | ⟨-, probeRequest, probe, hprobeRequest, hprobe, hfinish⟩
  · -- Without a key on the build side the probe is not even sent.
    exact (equiJoin_eq_nil hempty _).symm
  · obtain ⟨hindex, hfrom, hsize, hselects⟩ := selects_probeRequest hprobeRequest
    rw [eq_of_finish_eq_ok hfinish, hlimit, NestedLoop.limited, hholds.hits_eq hprobe,
      hholds.found_of_selects _ hindex hfrom hsize (hlength _) hselects]
    exact equiJoin_filter fun p b hb hsame => all_choices_of_sameKey hb hsame

end HashJoin

namespace NestedLoop

variable {plan : NestedLoop} {keys : List KeyPair}

/-- The rows of a nested loop without a limit, on a backend that holds documents, are those of the
documents that the own filters of the tables select. -/
theorem eq_exactJoin_of_holds (hholds : backend.Holds stored other found) {calls : List Call}
    {rows : List Row} (hrun : (plan.session.run backend calls).1 = .ok rows)
    (hlimit : plan.options.totalLimit = none)
    (hlength : ∀ side, (stored (plan.join.table side).index).length ≤
      (plan.options.limit side).toNat)
    (hkeys : plan.join.OnKeys keys) :
    rows = plan.join.exactJoin keys
      (plan.join.first.selected other (stored plan.join.first.index))
      (plan.join.second.selected other (stored plan.join.second.index)) := by
  obtain ⟨request, drive, hrequest, hdrive, hsub, hrows⟩ :=
    exists_of_run_session_eq_ok hholds.findsEach (by simp [hlimit]) hrun
  rw [hrows, hlimit, limited, loopRows_eq_exactJoin hholds hkeys (hlength .second) hsub,
    hholds.hits_eq hdrive, hholds.found_of_request hrequest (hlength .first)]

end NestedLoop

namespace Join

/-- A hash join and a nested loop give the same rows for a join on equalities, without a predicate over
both tables and without a limit, when the backend holds documents and the requests are large enough
for all of them. Numbers in key fields are below `2 ^ 63`. The rows are also in the same order when the
keys are those of the second table. -/
theorem run_session_perm {join : Join} {hashOptions loopOptions : JoinOptions} {hash : HashJoin}
    {loop : NestedLoop} {hashCalls loopCalls : List Call} {hashRows loopRows : List Row}
    (hhash : HashJoin.ofJoin join hashOptions = .ok hash)
    (hloop : NestedLoop.ofJoin join loopOptions = .ok loop)
    (hscope : ∀ c ∈ join.conditions, c.scope = .document) (hfilter : join.filter = none)
    (hlimit : hashOptions.totalLimit = none ∧ loopOptions.totalLimit = none)
    (hlength : ∀ side, (stored (join.table side).index).length ≤ (hashOptions.limit side).toNat ∧
      (stored (join.table side).index).length ≤ (loopOptions.limit side).toNat)
    (hbelow : ∀ side, ∀ doc ∈ stored (join.table side).index, ∀ pair ∈ hash.keys, ∀ v,
      doc.get? (pair.field side) = some v → v.belowSignedLimit = true)
    (hholds : backend.Holds stored other found)
    (hhashRun : (hash.session.run backend hashCalls).1 = .ok hashRows)
    (hloopRun : (loop.session.run backend loopCalls).1 = .ok loopRows) :
    hashRows.Perm loopRows ∧ (hashOptions.buildSide = .second → hashRows = loopRows) := by
  obtain ⟨keys, hkeys, rfl⟩ := HashJoin.exists_keys_of_ofJoin_eq_ok hhash
  obtain rfl := NestedLoop.eq_of_ofJoin_eq_ok hloop
  have hselected : ∀ doc ∈ join.first.selected other (stored join.first.index), ∀ pair ∈ keys, ∀ v,
      doc.get? pair.first = some v → v.belowSignedLimit = true :=
    fun doc hdoc => hbelow .first doc (List.mem_of_mem_filter hdoc)
  rw [HashJoin.eq_equiJoin_of_holds hholds hhashRun hlimit.1 fun side => (hlength side).1,
    NestedLoop.eq_exactJoin_of_holds hholds hloopRun hlimit.2 (fun side => (hlength side).2)
      ⟨hkeys, hscope, hfilter⟩]
  -- The side that keys are built from decides nothing but the order.
  cases hside : hashOptions.buildSide with
  | first =>
    refine ⟨?_, fun h => by cases h⟩
    simp only [HashJoin.probeSide, hside]
    exact HashJoin.equiJoin_perm_exactJoin hside hfilter hselected
  | second =>
    simp only [HashJoin.probeSide, hside]
    suffices hrows : _ = _ from ⟨.of_eq hrows, fun _ => hrows⟩
    exact HashJoin.equiJoin_eq_exactJoin hside hfilter hselected

end Join

end

/-! ## A backend that holds documents -/

/-- What a backend with these documents finds for a request. -/
def Backend.foundIn (stored : String → List Document) (other : Query → Document → Bool)
    (request : Request) : List Document :=
  let selected := (stored request.index).filter fun doc =>
    request.query.selects (Query.matchesExactly other doc)
  match request.size with
  | some size => selected.take size.toNat
  | none => selected

theorem Backend.holds_finding (stored : String → List Document) (other : Query → Document → Bool) :
    (Backend.finding (foundIn stored other)).Holds stored other (foundIn stored other) where
  search _ _ := ⟨_, rfl⟩
  findsEach := findsEach_finding _
  found_eq request size _ hsize hlength := by
    simp only [foundIn, hsize]
    exact List.take_of_length_le ((List.length_filter_le _ _).trans hlength)

/-- What the example's backend finds; no query of the example is tested by `other`. -/
def Sample.found : Request → List Document := Backend.foundIn stored fun _ _ => false

/-- The rows of the example come in different orders. -/
theorem Join.run_session_perm_sample :
    ∃ hashRows loopRows,
      ((Sample.hash .first none).session.run (.finding Sample.found) []).1 = .ok hashRows ∧
      (NestedLoop.sample.session.run (.finding Sample.found) []).1 = .ok loopRows ∧
      hashRows.length = 3 ∧ hashRows.Perm loopRows := by
  have hhashPlan : HashJoin.ofJoin Sample.join (Sample.options .first none) =
      .ok (Sample.hash .first none) := rfl
  have hloopPlan : NestedLoop.ofJoin Sample.join (Sample.options .first none) =
      .ok NestedLoop.sample := rfl
  have hsub : ∀ row ∈ [Sample.user (some "u1") true, Sample.user none true,
      Sample.user (some "u3") true], ∃ sub, NestedLoop.sample.subRequest row = .ok sub :=
    List.forall_mem_cons.2 ⟨⟨_, rfl⟩, List.forall_mem_cons.2 ⟨⟨_, rfl⟩,
      List.forall_mem_cons.2 ⟨⟨_, rfl⟩, List.forall_mem_nil _⟩⟩⟩
  have hhash : ((Sample.hash .first none).session.run (.finding Sample.found) []).1 =
      .ok [Sample.join.mergePair (Sample.user (some "u1") true, Sample.order "u1"),
        Sample.join.mergePair (Sample.user (some "u3") true, Sample.order "u3"),
        Sample.join.mergePair (Sample.user (some "u1") true, Sample.order "u1")] := rfl
  have hloop : (NestedLoop.sample.session.run (.finding Sample.found) []).1 =
      .ok [Sample.join.mergePair (Sample.user (some "u1") true, Sample.order "u1"),
        Sample.join.mergePair (Sample.user (some "u1") true, Sample.order "u1"),
        Sample.join.mergePair (Sample.user (some "u3") true, Sample.order "u3")] := by
    rw [NestedLoop.run_session_of_findsEach NestedLoop.sample (by decide) (by decide) rfl rfl hsub
      (Backend.findsEach_finding Sample.found)]
    rfl
  have hbelow : ∀ side, ∀ doc ∈ Sample.stored (Sample.join.table side).index,
      ∀ pair ∈ (Sample.hash .first none).keys,
        (doc.get? (pair.field side)).all Value.belowSignedLimit = true := by
    intro side
    cases side <;> decide
  have hrows := Join.run_session_perm hhashPlan hloopPlan (by decide) rfl ⟨rfl, rfl⟩ (fun side => by cases side <;> decide)
    (fun side doc hdoc pair hpair v hv => by simpa [hv] using hbelow side doc hdoc pair hpair)
    (Backend.holds_finding Sample.stored fun _ _ => false) hhash hloop
  exact ⟨_, _, hhash, hloop, rfl, hrows.1⟩

end SearchJoin
