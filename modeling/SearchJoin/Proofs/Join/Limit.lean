import Mathlib.Data.List.Flatten
import SearchJoin.Proofs.Join.Agreement
import SearchJoin.Proofs.Join.Options
import SearchJoin.Proofs.Join.Steps

/-!
# What the limit of a statement does to a hash join

The limit of a statement bounds what is returned, and without a hint it also bounds what is fetched of
each table. A hash join with a limit gives the first rows of the join of the documents that are fetched
then. These are rows of the join without a limit, in the same order, but not always the first ones: a
document that is cut off may have a partner where those that are fetched have none.

Main statements: `HashJoin.run_session_withLimit`; `HashJoin.limit_drops_first_row`, a row that is missing
with a limit.
-/

namespace SearchJoin

/-! ## Backends that find the first documents -/

/-- The backend holds the documents `stored` of each index, and a search finds the first ones that its
query selects, up to its size. Fields are tested by `test`, which takes a choice of values for a test of
each of them. -/
structure Backend.FindsFirst (backend : Backend) (stored : String → List Document)
    (test : Query → Document → Bool) : Prop where
  /-- Searches are answered. -/
  search : ∀ calls request size, request.from? = none → request.size = some size →
    ∃ total, backend.search calls request = .ok ⟨total,
      ((stored request.index).filter fun doc =>
        request.query.selects fun query => test query doc).take size.toNat⟩
  /-- A choice of values is tested value by value. -/
  terms : ∀ field values doc,
    test (.terms field values) doc = values.any fun value => test (.term field value) doc

/-- The documents that a table's own filter selects. -/
def Table.matching (test : Query → Document → Bool) (table : Table) (docs : List Document) :
    List Document :=
  docs.filter fun doc => table.selects fun query => test query doc

theorem Backend.FindsFirst.search_request {backend : Backend} {stored : String → List Document}
    {test : Query → Document → Bool} (hfinds : backend.FindsFirst stored test) {table : Table}
    {size : UInt64} {names : List String} {request : Request}
    (hrequest : table.request size names = .ok request) (calls : List Call) :
    ∃ total, backend.search calls request =
      .ok ⟨total, (table.matching test (stored table.index)).take size.toNat⟩ := by
  obtain ⟨hindex, hfrom, hsize, hselects⟩ := Table.selects_request hrequest
  obtain ⟨total, htotal⟩ := hfinds.search calls request size hfrom hsize
  refine ⟨total, ?_⟩
  rw [htotal, hindex]
  simp only [hselects]
  rfl

theorem Backend.FindsFirst.selects_choice {backend : Backend} {stored : String → List Document}
    {test : Query → Document → Bool} (hfinds : backend.FindsFirst stored test) (field : String)
    (parts : List KeyPart) (doc : Document) :
    ((Query.terms field (parts.map KeyPart.toValue)).selects fun query => test query doc) =
      parts.any fun part => test (.term field part.toValue) doc := by
  have hleaf : ((Query.terms field (parts.map KeyPart.toValue)).selects fun query =>
      test query doc) = test (.terms field (parts.map KeyPart.toValue)) doc := rfl
  rw [hleaf, hfinds.terms, List.any_map]
  rfl

/-- When each of the first elements gives something, they give as much as all elements. -/
theorem take_flatMap_take {α β : Type} {f : α → List β} {xs : List α} {m n : Nat}
    (h : ∀ x ∈ xs.take n, f x ≠ []) (hmn : m ≤ n) :
    ((xs.take n).flatMap f).take m = (xs.flatMap f).take m := by
  induction xs generalizing m n with
  | nil => rw [List.take_nil]
  | cons x xs ih =>
    cases n with
    | zero =>
      have hm : m = 0 := by omega
      rw [hm, List.take_zero, List.take_zero]
    | succ n =>
      rw [List.take_succ_cons] at h ⊢
      obtain ⟨hx, hxs⟩ := List.forall_mem_cons.1 h
      have hlength : 0 < (f x).length := List.length_pos_iff.2 hx
      have hrest : m - (f x).length ≤ n := by omega
      rw [List.flatMap_cons, List.flatMap_cons, List.take_append, List.take_append, ih hxs hrest]

namespace HashJoin

variable {plan : HashJoin} {backend : Backend} {stored : String → List Document}
  {test : Query → Document → Bool} {calls : List Call} {rows : List Row} {limit : UInt64}

/-- The documents that the build side has. -/
def built (plan : HashJoin) (test : Query → Document → Bool) (stored : String → List Document) :
    List Document :=
  (plan.join.table plan.options.buildSide).matching test
    (stored (plan.join.table plan.options.buildSide).index)

/-- The documents that the probed side has for the keys of these documents of the build side. -/
def probed (plan : HashJoin) (test : Query → Document → Bool) (stored : String → List Document)
    (build : List Document) : List Document :=
  (stored (plan.join.table plan.probeSide).index).filter fun doc =>
    ((plan.join.table plan.probeSide).selects fun query => test query doc) &&
      (plan.choices (plan.buildTable build)).all fun choice =>
        choice.selects fun query => test query doc

theorem search_probeRequest (hfinds : backend.FindsFirst stored test) {build : List Document}
    {request : Request} (hrequest : plan.probeRequest (plan.buildTable build) = .ok request)
    (calls : List Call) :
    ∃ total, backend.search calls request = .ok ⟨total,
      (plan.probed test stored build).take (plan.options.limit plan.probeSide).toNat⟩ := by
  obtain ⟨hindex, hfrom, hsize, hselects⟩ := selects_probeRequest hrequest
  obtain ⟨total, htotal⟩ := hfinds.search calls request _ hfrom hsize
  refine ⟨total, ?_⟩
  rw [htotal, hindex, probed]
  simp only [hselects]

/-- A document that is selected for some keys is selected for more keys too. -/
theorem probed_sublist (hfinds : backend.FindsFirst stored test) {fewer more : List Document}
    (hsub : ∀ doc ∈ fewer, doc ∈ more) :
    (plan.probed test stored fewer).Sublist (plan.probed test stored more) := by
  refine List.monotone_filter_right _ fun doc hdoc => ?_
  obtain ⟨hown, hchoices⟩ := Bool.and_eq_true_iff.1 hdoc
  refine Bool.and_eq_true_iff.2 ⟨hown, List.all_eq_true.2 fun choice hchoice => ?_⟩
  obtain ⟨⟨field, position⟩, hmem, rfl⟩ := List.mem_map.1 hchoice
  have hselected := List.all_eq_true.1 hchoices _ (List.mem_map_of_mem hmem)
  dsimp only at hselected ⊢
  rw [hfinds.selects_choice] at hselected ⊢
  obtain ⟨part, hpart, htest⟩ := List.any_eq_true.1 hselected
  obtain ⟨key, hkey, hat⟩ := KeyTable.mem_distinctParts.1 hpart
  obtain ⟨owner, howner, hkeyOf⟩ := KeyTable.mem_keys_ofDocuments.1 hkey
  refine List.any_eq_true.2 ⟨part, KeyTable.mem_distinctParts.2 ⟨key, ?_, hat⟩, htest⟩
  exact KeyTable.mem_keys_ofDocuments.2 ⟨owner, hsub owner howner, hkeyOf⟩

theorem equiJoin_sublist {someBuild build someProbe probe : List Document}
    (hbuild : someBuild.Sublist build) (hprobe : someProbe.Sublist probe) :
    (plan.equiJoin someBuild someProbe).Sublist (plan.equiJoin build probe) := by
  have hrows : (plan.equiJoin someBuild probe).Sublist (plan.equiJoin build probe) :=
    List.Sublist.flatMap_right probe fun p _ => hbuild.filterMap _
  exact (hprobe.flatMap _).trans hrows

/-- The run on a backend that finds the first documents, without the backend: the build side is
`build`, and the probed side is what it has for the keys of these. -/
theorem run_session_eq_ok_iff_of_findsFirst (hfinds : backend.FindsFirst stored test)
    (hlimit : plan.options.totalLimit ≠ some 0) :
    (plan.session.run backend calls).1 = .ok rows ↔
      (plan.join.table plan.options.buildSide).hasQuery = true ∧
        let build := (plan.built test stored).take
          (plan.options.limit plan.options.buildSide).toNat
        let probe := (plan.probed test stored build).take
          (plan.options.limit plan.probeSide).toNat
        ((plan.buildTable build).isEmpty = true ∧ rows = [] ∨
          (plan.buildTable build).isEmpty = false ∧
            (plan.buildTable build).keys.findSome? plan.keyMismatch? = none ∧
            ((plan.join.table plan.probeSide).hasQuery = true ∧
              "" ∉ plan.keyFields plan.probeSide) ∧
            plan.finish (plan.buildTable build) build probe = .ok rows) := by
  rw [run_session_eq_ok_iff hlimit]
  constructor
  · rintro ⟨request, build, hrequest, hbuild, hcases⟩
    obtain ⟨total, htotal⟩ := hfinds.search_request hrequest calls
    rw [htotal] at hbuild
    cases hbuild
    refine ⟨Table.isOk_request_iff.1 (isOk_iff.2 ⟨request, hrequest⟩), ?_⟩
    rcases hcases with hempty | ⟨hkeys, hfits, probeRequest, probe, hprobeRequest, hprobe, hfinish⟩
    · exact .inl hempty
    · obtain ⟨total, htotal⟩ := search_probeRequest hfinds hprobeRequest (calls ++ [.search request])
      rw [htotal] at hprobe
      cases hprobe
      have hsent := (isOk_probeRequest_iff hkeys).1 (isOk_iff.2 ⟨probeRequest, hprobeRequest⟩)
      exact .inr ⟨hkeys, hfits, hsent, hfinish⟩
  · rintro ⟨hown, hcases⟩
    obtain ⟨request, hrequest⟩ := isOk_iff.1 (Table.isOk_request hown
      (plan.options.limit plan.options.buildSide) (plan.keyFields plan.options.buildSide))
    obtain ⟨total, htotal⟩ := hfinds.search_request hrequest calls
    refine ⟨request, _, hrequest, htotal, ?_⟩
    rcases hcases with hempty | ⟨hkeys, hfits, hsent, hfinish⟩
    · exact .inl hempty
    · obtain ⟨probeRequest, hprobeRequest⟩ := isOk_iff.1 ((isOk_probeRequest_iff hkeys).2 hsent)
      obtain ⟨total, htotal⟩ := search_probeRequest hfinds hprobeRequest (calls ++ [.search request])
      exact .inr ⟨hkeys, hfits, probeRequest, _, hprobeRequest, htotal, hfinish⟩

theorem eq_equiJoin_of_findsFirst (hfinds : backend.FindsFirst stored test)
    (hlimit : plan.options.totalLimit ≠ some 0)
    (hrun : (plan.session.run backend calls).1 = .ok rows) :
    let build := (plan.built test stored).take (plan.options.limit plan.options.buildSide).toNat
    let probe := (plan.probed test stored build).take (plan.options.limit plan.probeSide).toNat
    rows = NestedLoop.limited plan.options.totalLimit (plan.equiJoin build probe) := by
  intro build probe
  obtain ⟨-, hcases⟩ := (run_session_eq_ok_iff_of_findsFirst hfinds hlimit).1 hrun
  rcases hcases with ⟨hempty, rfl⟩ | ⟨-, -, -, hfinish⟩
  · rw [equiJoin_eq_nil hempty]
    cases plan.options.totalLimit with
    | none => rfl
    | some limit => exact List.take_nil.symm
  · exact eq_of_finish_eq_ok hfinish

theorem take_built (hsize : ∀ side, (stored (plan.join.table side).index).length ≤
      (plan.options.limit side).toNat) :
    (plan.built test stored).take (plan.options.limit plan.options.buildSide).toNat =
      plan.built test stored :=
  List.take_of_length_le ((List.length_filter_le _ _).trans (hsize _))

theorem take_probed (hsize : ∀ side, (stored (plan.join.table side).index).length ≤
      (plan.options.limit side).toNat) (build : List Document) :
    (plan.probed test stored build).take (plan.options.limit plan.probeSide).toNat =
      plan.probed test stored build :=
  List.take_of_length_le ((List.length_filter_le _ _).trans (hsize _))

/-! ## Runs with a limit -/

/-- The hash join with a limit. -/
def withLimit (plan : HashJoin) (limit : UInt64) : HashJoin :=
  ⟨plan.join.withLimit limit, plan.options.withLimit limit, plan.keys⟩

theorem ofJoin_withLimit {join : Join} {options : JoinOptions}
    (hplan : ofJoin join options = .ok plan) :
    ofJoin (join.withLimit limit) (options.withLimit limit) = .ok (plan.withLimit limit) := by
  obtain ⟨keys, hkeys, rfl⟩ := exists_keys_of_ofJoin_eq_ok hplan
  unfold ofJoin at hplan ⊢
  by_cases hempty : join.conditions.isEmpty = true
  · rw [if_pos hempty] at hplan
    cases hplan
  · rw [if_neg (by exact hempty)]
    exact bind_eq_ok.2 ⟨keys, hkeys, rfl⟩

theorem collect_withLimit (join : Join) (most : Option Nat) (pairs : List (Document × Document)) :
    collect (join.withLimit limit) most pairs = collect join most pairs := by
  have hcombine : ∀ pair, combine (join.withLimit limit) pair = combine join pair := fun _ => rfl
  induction pairs generalizing most with
  | nil => rfl
  | cons pair pairs ih => simp only [collect, hcombine, ih]

section WithLimit

variable (plan limit)

@[simp]
theorem table_withLimit (side : Side) :
    (plan.withLimit limit).join.table side = plan.join.table side :=
  Join.table_withLimit plan.join limit side

@[simp]
theorem limit_withLimit (side : Side) : (plan.withLimit limit).options.limit side = limit := by
  cases side with
  | first => rfl
  | second => rfl

@[simp]
theorem keyMismatch?_withLimit : (plan.withLimit limit).keyMismatch? = plan.keyMismatch? := by
  obtain ⟨join, ⟨_, _, _, _, buildSide, _⟩, keys⟩ := plan
  cases buildSide with
  | first => rfl
  | second => rfl

@[simp]
theorem finish_withLimit (table : KeyTable) (build probe : List Document) :
    (plan.withLimit limit).finish table build probe =
      collect plan.join (some limit.toNat) (probe.flatMap (plan.partners table build)) :=
  collect_withLimit plan.join (some limit.toNat) _

@[simp]
theorem built_withLimit : (plan.withLimit limit).built test stored = plan.built test stored := by
  unfold built
  rw [table_withLimit]
  rfl

@[simp]
theorem probed_withLimit (build : List Document) :
    (plan.withLimit limit).probed test stored build = plan.probed test stored build := by
  unfold probed
  rw [table_withLimit]
  rfl

end WithLimit

/-- The run with a limit, in terms of the plan without it. -/
theorem run_session_withLimit_eq_ok_iff (hfinds : backend.FindsFirst stored test)
    (hlimit : limit ≠ 0) :
    ((plan.withLimit limit).session.run backend calls).1 = .ok rows ↔
      (plan.join.table plan.options.buildSide).hasQuery = true ∧
        let build := (plan.built test stored).take limit.toNat
        let probe := (plan.probed test stored build).take limit.toNat
        ((plan.buildTable build).isEmpty = true ∧ rows = [] ∨
          (plan.buildTable build).isEmpty = false ∧
            (plan.buildTable build).keys.findSome? plan.keyMismatch? = none ∧
            ((plan.join.table plan.probeSide).hasQuery = true ∧
              "" ∉ plan.keyFields plan.probeSide) ∧
            collect plan.join (some limit.toNat)
              (probe.flatMap (plan.partners (plan.buildTable build) build)) = .ok rows) := by
  have htotal : (plan.withLimit limit).options.totalLimit ≠ some 0 := by
    intro h
    exact hlimit (Option.some.inj h)
  rw [run_session_eq_ok_iff_of_findsFirst hfinds htotal]
  simp only [table_withLimit, limit_withLimit, keyMismatch?_withLimit, finish_withLimit,
    built_withLimit, probed_withLimit]
  exact Iff.rfl

theorem mem_pairs_of_subset {someBuild build someProbe probe : List Document}
    (hbuild : ∀ b ∈ someBuild, b ∈ build) (hprobe : ∀ p ∈ someProbe, p ∈ probe)
    {pair : Document × Document}
    (h : pair ∈ someProbe.flatMap (plan.partners (plan.buildTable someBuild) someBuild)) :
    pair ∈ probe.flatMap (plan.partners (plan.buildTable build) build) := by
  obtain ⟨p, hp, hpair⟩ := List.mem_flatMap.1 h
  rw [partners_buildTable] at hpair
  obtain ⟨b, hb, rfl⟩ := List.mem_map.1 hpair
  obtain ⟨hb, hsame⟩ := List.mem_filter.1 hb
  refine List.mem_flatMap.2 ⟨p, hprobe p hp, ?_⟩
  rw [partners_buildTable]
  exact List.mem_map_of_mem (List.mem_filter.2 ⟨hbuild b hb, hsame⟩)

/-- Fewer documents have fewer keys and fewer pairs, so that nothing new can fail with a limit. -/
theorem exists_run_session_withLimit (hfinds : backend.FindsFirst stored test) (hlimit : limit ≠ 0)
    (htotal : plan.options.totalLimit = none)
    (hsize : ∀ side, (stored (plan.join.table side).index).length ≤
      (plan.options.limit side).toNat)
    (hrun : (plan.session.run backend calls).1 = .ok rows) (limitedCalls : List Call) :
    ∃ limitedRows,
      ((plan.withLimit limit).session.run backend limitedCalls).1 = .ok limitedRows := by
  obtain ⟨hown, hcases⟩ :=
    (run_session_eq_ok_iff_of_findsFirst hfinds (by rw [htotal]; exact nofun)).1 hrun
  simp only [take_built hsize, take_probed hsize] at hcases
  have hsub : ∀ doc ∈ (plan.built test stored).take limit.toNat, doc ∈ plan.built test stored :=
    fun doc hdoc => List.mem_of_mem_take hdoc
  by_cases hempty : (plan.buildTable ((plan.built test stored).take limit.toNat)).isEmpty = true
  · exact ⟨[], (run_session_withLimit_eq_ok_iff hfinds hlimit).2 ⟨hown, .inl ⟨hempty, rfl⟩⟩⟩
  · rcases hcases with ⟨hnone, -⟩ | ⟨-, hfits, hsent, hfinish⟩
    · have hnone := KeyTable.isEmpty_ofDocuments.1 hnone
      exact absurd (KeyTable.isEmpty_ofDocuments.2 fun doc hdoc => hnone doc (hsub doc hdoc)) hempty
    · have hfits' : (plan.buildTable ((plan.built test stored).take limit.toNat)).keys.findSome?
          plan.keyMismatch? = none := by
        refine List.findSome?_eq_none_iff.2 fun key hkey => ?_
        obtain ⟨doc, hdoc, hkeyOf⟩ := KeyTable.mem_keys_ofDocuments.1 hkey
        exact List.findSome?_eq_none_iff.1 hfits key
          (KeyTable.mem_keys_ofDocuments.2 ⟨doc, hsub doc hdoc, hkeyOf⟩)
      rw [finish, htotal] at hfinish
      have htests := exists_combine_eq_ok hfinish
      have hprobe : ∀ p ∈ (plan.probed test stored
          ((plan.built test stored).take limit.toNat)).take limit.toNat,
            p ∈ plan.probed test stored (plan.built test stored) :=
        fun p hp => (probed_sublist hfinds hsub).subset (List.mem_of_mem_take hp)
      obtain ⟨limitedRows, hrows⟩ := exists_collect_eq_ok
        (fun pair hpair => htests pair (mem_pairs_of_subset hsub hprobe hpair)) (some limit.toNat)
      exact ⟨limitedRows, (run_session_withLimit_eq_ok_iff hfinds hlimit).2
        ⟨hown, .inr ⟨Bool.eq_false_iff.2 hempty, hfits', hsent, hrows⟩⟩⟩

/-- A statement without a limit and without a hint for it is run on a backend that finds the first
documents, where the default limit of the settings is no less than the number of documents. When the run
has a result, so has the run with a limit: the first rows of the join of the first documents of the build
side with the first documents that are probed for their keys. These rows stand in the result without the
limit in the same order. They are its first ones when the limit cuts off no document of the build side,
and either cuts off no probed one or each of those that are left has a row. -/
theorem run_session_withLimit {settings : JoinSettings} {join : Join} {options : JoinOptions}
    (hstatement : join.limit = none) (hhints : ∀ hint ∈ join.hints, hint.kind ≠ .joinLimit)
    (hoptions : JoinOptions.resolve settings join = .ok options)
    (hplan : ofJoin join options = .ok plan) (hfinds : backend.FindsFirst stored test)
    (hsize : ∀ side, (stored (join.table side).index).length ≤ settings.defaultTableLimit.toNat)
    (hrun : (plan.session.run backend calls).1 = .ok rows) (hlimit : limit ≠ 0)
    (limitedCalls : List Call) :
    JoinOptions.resolve settings (join.withLimit limit) = .ok (options.withLimit limit) ∧
      ofJoin (join.withLimit limit) (options.withLimit limit) = .ok (plan.withLimit limit) ∧
      ∃ limitedRows,
        ((plan.withLimit limit).session.run backend limitedCalls).1 = .ok limitedRows ∧
        let n := limit.toNat
        let build := plan.built test stored
        let probed := plan.probed test stored
        rows = plan.equiJoin build (probed build) ∧
        limitedRows = (plan.equiJoin (build.take n) ((probed (build.take n)).take n)).take n ∧
        limitedRows.Sublist rows ∧
        (build.length ≤ n →
          (probed build).length ≤ n ∨ (∀ p ∈ (probed build).take n, plan.equiJoin build [p] ≠ []) →
          limitedRows = rows.take n) := by
  obtain ⟨hlimits, htotal⟩ := JoinOptions.limit_of_resolve_eq_ok hhints hstatement hoptions
  obtain ⟨rfl, rfl⟩ : plan.join = join ∧ plan.options = options := by
    obtain ⟨keys, -, rfl⟩ := exists_keys_of_ofJoin_eq_ok hplan
    exact ⟨rfl, rfl⟩
  have hfetched : ∀ side, (stored (plan.join.table side).index).length ≤
      (plan.options.limit side).toNat := by
    intro side
    rw [hlimits side]
    exact hsize side
  refine ⟨JoinOptions.resolve_withLimit hhints hlimit hoptions, ofJoin_withLimit hplan, ?_⟩
  obtain ⟨limitedRows, hlimited⟩ :=
    exists_run_session_withLimit hfinds hlimit htotal hfetched hrun limitedCalls
  refine ⟨limitedRows, hlimited, ?_⟩
  intro n build probed
  have hrows : rows = plan.equiJoin build (probed build) := by
    have h := eq_equiJoin_of_findsFirst hfinds (by rw [htotal]; exact nofun) hrun
    simp only [take_built hfetched, take_probed hfetched, htotal] at h
    exact h
  have hlimitedRows : limitedRows =
      (plan.equiJoin (build.take n) ((probed (build.take n)).take n)).take n := by
    have h := eq_equiJoin_of_findsFirst hfinds (fun h => hlimit (Option.some.inj h)) hlimited
    simp only [limit_withLimit, built_withLimit, probed_withLimit] at h
    exact h
  refine ⟨hrows, hlimitedRows, ?_, ?_⟩
  · rw [hlimitedRows, hrows]
    have hprobed : ((probed (build.take n)).take n).Sublist (probed build) :=
      (List.take_sublist _ _).trans
        (probed_sublist hfinds fun doc hdoc => List.mem_of_mem_take hdoc)
    exact (List.take_sublist _ _).trans (equiJoin_sublist (List.take_sublist _ _) hprobed)
  · intro hbuild hprobe
    rw [hlimitedRows, hrows, List.take_of_length_le hbuild]
    rcases hprobe with hshort | hpartners
    · rw [List.take_of_length_le hshort]
    · refine take_flatMap_take (fun p hp => ?_) le_rfl
      have hrow := hpartners p hp
      rw [equiJoin, List.flatMap_singleton] at hrow
      exact hrow

end HashJoin

/-! ## An example -/

theorem Backend.findsFirst_finding (stored : String → List Document)
    (other : Query → Document → Bool) :
    (Backend.finding (foundIn stored other)).FindsFirst stored
      fun query doc => query.matchesExactly other doc where
  search calls request size _ hsize := by
    have hfound : foundIn stored other request = ((stored request.index).filter fun doc =>
        request.query.selects fun query => query.matchesExactly other doc).take size.toNat := by
      rw [foundIn, hsize]
    exact ⟨_, by rw [← hfound]; rfl⟩
  terms field values doc := by
    simp only [Query.matchesExactly]
    cases doc.get? field with
    | none => simp
    | some held => simp

namespace Sample

/-- The settings that give the example's options. -/
def settings : JoinSettings := ⟨2, 100, 2⟩

/-- The first user has no order. -/
def idleFirst (index : String) : List Document :=
  if index = "users" then [user (some "u1") true, user (some "u2") true] else [order "u2"]

/-- A backend with these documents. -/
def idleBackend : Backend := .finding (Backend.foundIn idleFirst fun _ _ => false)

end Sample

/-- Two of the three rows of the example. -/
theorem HashJoin.run_session_withLimit_sample :
    ∃ rows limitedRows,
      ((Sample.hash .first none).session.run (.finding Sample.found) []).1 = .ok rows ∧
      (((Sample.hash .first none).withLimit 2).session.run (.finding Sample.found) []).1 =
        .ok limitedRows ∧
      rows.length = 3 ∧ limitedRows.length = 2 ∧ limitedRows.Sublist rows := by
  have hoptions : JoinOptions.resolve Sample.settings Sample.join =
      .ok (Sample.options .first none) := rfl
  have hplan : ofJoin Sample.join (Sample.options .first none) = .ok (Sample.hash .first none) :=
    rfl
  have hsize : ∀ side, (Sample.stored (Sample.join.table side).index).length ≤
      Sample.settings.defaultTableLimit.toNat := by
    intro side
    cases side <;> decide
  have hrun : ((Sample.hash .first none).session.run (.finding Sample.found) []).1 =
      .ok [Sample.join.mergePair (Sample.user (some "u1") true, Sample.order "u1"),
        Sample.join.mergePair (Sample.user (some "u3") true, Sample.order "u3"),
        Sample.join.mergePair (Sample.user (some "u1") true, Sample.order "u1")] := rfl
  have hlimit : (2 : UInt64) ≠ 0 := by decide
  obtain ⟨-, -, limitedRows, hlimited, -, hrows, hsublist, -⟩ :=
    HashJoin.run_session_withLimit rfl (List.forall_mem_nil _) hoptions hplan
      (Backend.findsFirst_finding Sample.stored fun _ _ => false) hsize hrun hlimit []
  refine ⟨_, limitedRows, hrun, hlimited, rfl, ?_, hsublist⟩
  rw [hrows]
  rfl

/-- The rows with a limit are not always the first ones of those without: with a limit of one only the
user without an order is fetched, and there is no row at all. -/
theorem HashJoin.limit_drops_first_row :
    ∃ rows, Sample.join.limit = none ∧ Sample.join.hints = [] ∧
      JoinOptions.resolve Sample.settings Sample.join = .ok (Sample.options .first none) ∧
      ofJoin Sample.join (Sample.options .first none) = .ok (Sample.hash .first none) ∧
      (Sample.idleBackend.FindsFirst Sample.idleFirst fun query doc =>
        query.matchesExactly (fun _ _ => false) doc) ∧
      (∀ side, (Sample.idleFirst (Sample.join.table side).index).length ≤
        Sample.settings.defaultTableLimit.toNat) ∧
      ((Sample.hash .first none).session.run Sample.idleBackend []).1 = .ok rows ∧
      JoinOptions.resolve Sample.settings (Sample.join.withLimit 1) =
        .ok ((Sample.options .first none).withLimit 1) ∧
      ofJoin (Sample.join.withLimit 1) ((Sample.options .first none).withLimit 1) =
        .ok ((Sample.hash .first none).withLimit 1) ∧
      (((Sample.hash .first none).withLimit 1).session.run Sample.idleBackend []).1 = .ok [] ∧
      rows.take 1 ≠ [] := by
  have hrun : ((Sample.hash .first none).session.run Sample.idleBackend []).1 =
      .ok [Sample.join.mergePair (Sample.user (some "u2") true, Sample.order "u2")] := rfl
  have hlimited : (((Sample.hash .first none).withLimit 1).session.run Sample.idleBackend []).1 =
      .ok [] := rfl
  have hfinds := Backend.findsFirst_finding Sample.idleFirst fun _ _ => false
  have hsize : ∀ side, (Sample.idleFirst (Sample.join.table side).index).length ≤
      Sample.settings.defaultTableLimit.toNat := by
    intro side
    cases side <;> decide
  exact ⟨_, rfl, rfl, rfl, rfl, hfinds, hsize, hrun, rfl, rfl, hlimited, List.cons_ne_nil _ _⟩

end SearchJoin
