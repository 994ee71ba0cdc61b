import SearchJoin.Join.NestedLoop
import SearchJoin.Proofs.Backend.Session
import SearchJoin.Proofs.Join.KeyTable

/-!
# What a hash join computes

The rows of a hash join are those of the relational join of the documents that its two searches
found: each probed document with each document of the build side that has the same key, in this
order, where the predicate over both tables holds.

Main statement: `run_session_eq_equiJoin`.
-/

namespace SearchJoin

/-- The predicate over both tables holds for a pair, if there is one. -/
def Join.selectsPair (join : Join) (pair : Document × Document) : Bool :=
  match join.filter with
  | none => true
  | some filter =>
    match join.pairHolds filter pair.1 pair.2 with
    | .ok holds => holds
    | .error _ => false

/-- The row of a document of each table. -/
def Join.mergePair (join : Join) (pair : Document × Document) : Row :=
  Row.merge pair.1 join.first.fields join.second.qualifier pair.2 join.second.fields

namespace HashJoin

/-- The key of a document of a side. -/
def keyOf? (plan : HashJoin) (side : Side) (doc : Document) : Option Key :=
  Key.ofDocument? (plan.keyFields side) doc

/-- The key table of the documents of the build side. -/
def buildTable (plan : HashJoin) (build : List Document) : KeyTable :=
  .ofDocuments (plan.keyFields plan.options.buildSide) build

/-- A probed document and a document of the build side have the same key. -/
def SameKey (plan : HashJoin) (probe build : Document) : Prop :=
  ∃ key, plan.keyOf? plan.probeSide probe = some key ∧
    plan.keyOf? plan.options.buildSide build = some key

instance (plan : HashJoin) (probe build : Document) : Decidable (plan.SameKey probe build) :=
  match hprobe : plan.keyOf? plan.probeSide probe with
  | none => .isFalse fun ⟨_, h, _⟩ => by rw [hprobe] at h; cases h
  | some key => decidable_of_iff (plan.keyOf? plan.options.buildSide build = some key)
      ⟨fun h => ⟨key, hprobe, h⟩, fun ⟨_, h, hbuild⟩ => by rw [hprobe] at h; cases h; exact hbuild⟩

/-- The relational join of probed documents and documents of the build side. -/
def equiJoin (plan : HashJoin) (build probe : List Document) : List Row :=
  probe.flatMap fun p => build.filterMap fun b =>
    if plan.SameKey p b ∧ plan.join.selectsPair (plan.orient b p) then
      some (plan.join.mergePair (plan.orient b p))
    else none

/-- Without a key on the build side nothing is joined. -/
theorem equiJoin_eq_nil {plan : HashJoin} {build : List Document}
    (hempty : (plan.buildTable build).isEmpty = true) (probe : List Document) :
    plan.equiJoin build probe = [] := by
  have hnone := KeyTable.isEmpty_ofDocuments.1 hempty
  refine List.flatMap_eq_nil_iff.2 fun p _ => List.filterMap_eq_nil_iff.2 fun b hb => ?_
  rw [if_neg]
  rintro ⟨⟨key, -, hkey⟩, -⟩
  rw [keyOf?, hnone b hb] at hkey
  cases hkey

/-- The partners of a probed document are the documents of the build side with its key. -/
theorem partners_buildTable (plan : HashJoin) (build : List Document) (probe : Document) :
    plan.partners (plan.buildTable build) build probe =
      (build.filter fun b => plan.SameKey probe b).map fun b => plan.orient b probe := by
  unfold partners
  cases hkey : Key.ofDocument? (plan.keyFields plan.probeSide) probe with
  | none =>
    have hnone : build.filter (fun b => plan.SameKey probe b) = [] := by
      refine List.filter_eq_nil_iff.2 fun b _ h => ?_
      obtain ⟨key, hprobe, _⟩ := of_decide_eq_true h
      rw [keyOf?, hkey] at hprobe
      cases hprobe
    rw [hnone]
    rfl
  | some key =>
    have hsame : ∀ b, plan.SameKey probe b ↔
        Key.ofDocument? (plan.keyFields plan.options.buildSide) b = some key := by
      intro b
      constructor
      · rintro ⟨other, hprobe, hbuild⟩
        rw [keyOf?, hkey] at hprobe
        rw [Option.some.inj hprobe]
        exact hbuild
      · intro h
        exact ⟨key, hkey, h⟩
    simp only [hsame]
    exact KeyTable.filterMap_rows _ build key fun b => plan.orient b probe

theorem eq_of_combine_eq_ok {join : Join} {pair : Document × Document} {row : Option Row}
    (h : combine join pair = .ok row) :
    row = if join.selectsPair pair then some (join.mergePair pair) else none := by
  unfold combine at h
  unfold Join.selectsPair
  cases hfilter : join.filter with
  | none =>
    rw [hfilter] at h
    exact (pure_eq_ok.1 h).symm
  | some filter =>
    simp only [hfilter] at h
    obtain ⟨holds, hholds, h⟩ := bind_eq_ok.1 h
    simp only [hholds]
    cases holds <;> exact (pure_eq_ok.1 h).symm

/-- The first elements, up to the limit. -/
def upTo {α : Type} (limit : Option Nat) (xs : List α) : List α :=
  match limit with
  | some limit => xs.take limit
  | none => xs

theorem upTo_cons {α : Type} {limit : Option Nat} (h : limit ≠ some 0) (x : α) (xs : List α) :
    upTo limit (x :: xs) = x :: upTo (limit.map (· - 1)) xs := by
  match limit with
  | none => rfl
  | some 0 => exact absurd rfl h
  | some (n + 1) => rfl

/-- The rows that are collected are the first rows of all pairs for which the predicate over both
tables holds. -/
theorem eq_of_collect_eq_ok {join : Join} {pairs : List (Document × Document)}
    {limit : Option Nat} {rows : List Row} (h : collect join limit pairs = .ok rows) :
    rows = upTo limit (pairs.filterMap fun pair =>
      if join.selectsPair pair then some (join.mergePair pair) else none) := by
  induction pairs generalizing limit rows with
  | nil =>
    cases h
    cases limit <;> simp [upTo]
  | cons pair pairs ih =>
    unfold collect at h
    by_cases hlimit : limit = some 0
    · rw [if_pos hlimit] at h
      cases h
      rw [hlimit]
      simp [upTo]
    · rw [if_neg hlimit] at h
      -- The limit counts rows, not pairs: a pair without a row leaves it as it is.
      obtain ⟨row, hrow, h⟩ := bind_eq_ok.1 h
      rw [List.filterMap_cons, ← eq_of_combine_eq_ok hrow]
      cases row with
      | none => exact ih h
      | some row =>
        obtain ⟨rest, hrest, h⟩ := bind_eq_ok.1 h
        rw [← pure_eq_ok.1 h, upTo_cons hlimit, ← ih hrest]

theorem eq_of_finish_eq_ok {plan : HashJoin} {build probe : List Document} {rows : List Row}
    (h : plan.finish (plan.buildTable build) build probe = .ok rows) :
    rows = NestedLoop.limited plan.options.totalLimit (plan.equiJoin build probe) := by
  have hlimited : ∀ rows, NestedLoop.limited plan.options.totalLimit rows =
      upTo (plan.options.totalLimit.map UInt64.toNat) rows := by
    intro rows
    cases plan.options.totalLimit <;> rfl
  rw [eq_of_collect_eq_ok h, hlimited, List.filterMap_flatMap, equiJoin]
  congr 2
  funext p
  rw [partners_buildTable, List.filterMap_map, List.filterMap_filter]
  refine List.filterMap_congr fun b _ => ?_
  by_cases hkey : plan.SameKey p b <;> simp [hkey]

/-- A part that the probed side cannot hold is reported as a mismatch of two fields. -/
theorem exists_of_keyMismatch?_eq_some {plan : HashJoin} {key : Key} {e : Error}
    (h : plan.keyMismatch? key = some e) : ∃ first second, e = .joinKeyMismatch first second := by
  obtain ⟨⟨part, pair⟩, -, h⟩ := List.exists_of_findSome?_eq_some h
  dsimp only at h
  split at h
  · split at h
    · cases h
    · cases h
      unfold partMismatch
      cases plan.options.buildSide with
      | first => exact ⟨_, _, rfl⟩
      | second => exact ⟨_, _, rfl⟩
  · cases h

/-- A run has a result when it finds the documents of the build side and these have no key, or their
keys fit the probed side, and it finds the probed documents and can test all pairs. -/
theorem run_session_eq_ok_iff {plan : HashJoin} {backend : Backend} {calls : List Call}
    {rows : List Row} (hlimit : plan.options.totalLimit ≠ some 0) :
    (plan.session.run backend calls).1 = .ok rows ↔
      ∃ request build, plan.sideRequest plan.options.buildSide = .ok request ∧
        backend.search calls request = .ok build ∧
        ((plan.buildTable build.hits).isEmpty = true ∧ rows = [] ∨
          (plan.buildTable build.hits).isEmpty = false ∧
            (plan.buildTable build.hits).keys.findSome? plan.keyMismatch? = none ∧
            ∃ probeRequest probe, plan.probeRequest (plan.buildTable build.hits) = .ok probeRequest ∧
              backend.search (calls ++ [.search request]) probeRequest = .ok probe ∧
              plan.finish (plan.buildTable build.hits) build.hits probe.hits = .ok rows) := by
  rw [session, if_neg hlimit]
  constructor
  · intro hrun
    obtain ⟨request, hrequest, hrun⟩ := Session.run_ofExcept_eq_ok.1 hrun
    rw [Session.run] at hrun
    cases hbuild : backend.search calls request with
    | error e => rw [hbuild] at hrun; cases hrun
    | ok build =>
      refine ⟨request, build, hrequest, hbuild, ?_⟩
      rw [hbuild] at hrun
      simp only [afterBuild] at hrun
      by_cases hempty : (plan.buildTable build.hits).isEmpty = true
      · rw [buildTable] at hempty
        rw [if_pos hempty] at hrun
        cases hrun
        exact .inl ⟨hempty, rfl⟩
      · rw [buildTable] at hempty
        rw [if_neg hempty] at hrun
        split at hrun
        · cases hrun
        · rename_i hfits
          obtain ⟨probeRequest, hprobeRequest, hrun⟩ := Session.run_ofExcept_eq_ok.1 hrun
          rw [Session.run] at hrun
          cases hprobe : backend.search (calls ++ [.search request]) probeRequest with
          | error e => rw [hprobe] at hrun; cases hrun
          | ok probe =>
            rw [hprobe] at hrun
            exact .inr ⟨Bool.eq_false_iff.2 hempty, hfits, probeRequest, probe, hprobeRequest,
              hprobe, hrun⟩
  · rintro ⟨request, build, hrequest, hbuild, hcases⟩
    refine Session.run_ofExcept_eq_ok.2 ⟨request, hrequest, ?_⟩
    rw [Session.run, hbuild]
    simp only [afterBuild]
    rcases hcases with ⟨hempty, rfl⟩ | ⟨hkeys, hfits, probeRequest, probe, hprobeRequest, hprobe, hfinish⟩
    · rw [buildTable] at hempty
      rw [if_pos hempty]
      rfl
    · rw [buildTable] at hkeys hfits
      rw [if_neg (Bool.eq_false_iff.1 hkeys), hfits]
      refine Session.run_ofExcept_eq_ok.2 ⟨probeRequest, hprobeRequest, ?_⟩
      rw [Session.run, hprobe]
      exact hfinish

/-- A run with a result has found the documents of the build side. Without a key among them it ends
there, else it has found the probed documents too. -/
theorem exists_of_run_session_eq_ok {plan : HashJoin} {backend : Backend} {calls : List Call}
    {rows : List Row} (hlimit : plan.options.totalLimit ≠ some 0)
    (hrun : (plan.session.run backend calls).1 = .ok rows) :
    ∃ request build, plan.sideRequest plan.options.buildSide = .ok request ∧
      backend.search calls request = .ok build ∧
      ((plan.buildTable build.hits).isEmpty = true ∧ rows = [] ∨
        (plan.buildTable build.hits).isEmpty = false ∧ ∃ probeRequest probe,
          plan.probeRequest (plan.buildTable build.hits) = .ok probeRequest ∧
          backend.search (calls ++ [.search request]) probeRequest = .ok probe ∧
          plan.finish (plan.buildTable build.hits) build.hits probe.hits = .ok rows) := by
  obtain ⟨request, build, hrequest, hbuild, hcases⟩ := (run_session_eq_ok_iff hlimit).1 hrun
  refine ⟨request, build, hrequest, hbuild, ?_⟩
  rcases hcases with hempty | ⟨hkeys, -, hprobe⟩
  · exact .inl hempty
  · exact .inr ⟨hkeys, hprobe⟩

/-- The rows of a hash join that ends with a result are the first rows, up to the limit, of the
relational join of the documents that its searches found, whatever these documents are. Where no
document of the build side has a key there are none. -/
theorem run_session_eq_equiJoin {plan : HashJoin} {backend : Backend} {calls : List Call}
    {rows : List Row} (hlimit : plan.options.totalLimit ≠ some 0)
    (hrun : (plan.session.run backend calls).1 = .ok rows) :
    ∃ request build, plan.sideRequest plan.options.buildSide = .ok request ∧
      backend.search calls request = .ok build ∧
      ((∀ doc ∈ build.hits, plan.keyOf? plan.options.buildSide doc = none) → rows = []) ∧
      ((∃ doc ∈ build.hits, plan.keyOf? plan.options.buildSide doc ≠ none) →
        ∃ probeRequest probe,
          plan.probeRequest (plan.buildTable build.hits) = .ok probeRequest ∧
          backend.search (calls ++ [.search request]) probeRequest = .ok probe ∧
          rows = NestedLoop.limited plan.options.totalLimit
            (plan.equiJoin build.hits probe.hits)) := by
  obtain ⟨request, build, hrequest, hbuild, hcases⟩ := exists_of_run_session_eq_ok hlimit hrun
  refine ⟨request, build, hrequest, hbuild, ?_⟩
  rcases hcases with ⟨hempty, rfl⟩ | ⟨hkeys, probeRequest, probe, hprobeRequest, hprobe, hfinish⟩
  · refine ⟨fun _ => rfl, fun ⟨doc, hdoc, hkey⟩ => ?_⟩
    exact absurd (KeyTable.isEmpty_ofDocuments.1 hempty doc hdoc) hkey
  · refine ⟨fun hnone => ?_, fun _ => ?_⟩
    · rw [buildTable, KeyTable.isEmpty_ofDocuments.2 hnone] at hkeys
      cases hkeys
    · exact ⟨probeRequest, probe, hprobeRequest, hprobe, eq_of_finish_eq_ok hfinish⟩

end HashJoin

/-! ## An example -/

namespace Sample

/-- A user, who may have no identifier. -/
def user (id : Option String) (active : Bool) : Document :=
  ⟨"", "users", .ofList (("active", .bool active) :: (id.map fun id => ("id", .str id)).toList)⟩

/-- An order of a user. -/
def order (user : String) : Document := ⟨"", "orders", .ofList [("user", .str user)]⟩

/-- The documents of an index. -/
def stored (index : String) : List Document :=
  if index = "users" then
    [user (some "u1") true, user (some "u2") false, user none true, user (some "u3") true]
  else [order "u1", order "u2", order "u3", order "u1"]

/-- The active users with their orders. -/
def join : Join where
  first := ⟨"a", "users", [], some (.leaf (.eq "active" (.bool true))), .empty⟩
  second := ⟨"b", "orders", [], none, .empty⟩
  conditions := [.fields "a.id" .eq "b.user"]
  filter := none
  hints := []
  limit := none

/-- The options with a build side and a limit. -/
def options (buildSide : Side) (limit : Option UInt64) : JoinOptions :=
  ⟨2, 2, 100, 100, buildSide, limit⟩

/-- The search of an index for the documents with a value in a field. -/
def search (index field : String) (value : Value) : Request :=
  { index := index, query := .bool [] [] [] [.bool [.term field value] [] [] []], size := some 100 }

/-- The search of the orders for the keys of the users. -/
def probe : Request :=
  { index := "orders", query := .bool [] [] [] [.terms "user" [.str "u1", .str "u2", .str "u3"]],
    size := some 100 }

/-- The join by hashing keys. -/
def hash (buildSide : Side) (limit : Option UInt64) : HashJoin :=
  ⟨join, options buildSide limit, [⟨"id", "user"⟩]⟩

end Sample

/-- A backend that finds all documents, whether a query selects them or not. -/
theorem HashJoin.run_session_eq_equiJoin_sample :
    ∃ rows probe,
      ((Sample.hash .first (some 2)).session.run
        (.finding fun request => Sample.stored request.index) []).1 = .ok rows ∧
      rows.length = 2 ∧
      rows = NestedLoop.limited (some 2)
        ((Sample.hash .first (some 2)).equiJoin (Sample.stored "users") probe) := by
  have hrun : ((Sample.hash .first (some 2)).session.run
      (.finding fun request => Sample.stored request.index) []).1 =
        .ok [Sample.join.mergePair (Sample.user (some "u1") true, Sample.order "u1"),
          Sample.join.mergePair (Sample.user (some "u2") false, Sample.order "u2")] := rfl
  obtain ⟨request, build, hrequest, hbuild, -, hrows⟩ :=
    HashJoin.run_session_eq_equiJoin (by decide) hrun
  cases hrequest
  cases hbuild
  obtain ⟨-, probe, -, -, hprobe⟩ := hrows ⟨_, List.mem_cons_self, by decide⟩
  exact ⟨_, probe.hits, hrun, rfl, hprobe⟩

end SearchJoin
