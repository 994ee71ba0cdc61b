import SearchJoin.Proofs.Join.EquiJoin
import SearchJoin.Proofs.Join.Final
import SearchJoin.Proofs.Join.Requests

/-!
# What a hash join sends

A hash join searches the build side and then, if this is of any use, the probed side. The probe is left
out when no document of the build side has a key, and when a part of some key does not fit the type that
the probed table declares.

Main statement: `HashJoin.exists_sent`.
-/

namespace SearchJoin.HashJoin

variable {plan : HashJoin} {backend : Backend} {calls : List Call} {build : List Document}

/-- Every part of the key fits the type that the probed table declares for the key field in its place, if
it declares one. -/
def FitsProbe (plan : HashJoin) (key : Key) : Prop :=
  ∀ (position : Nat) (part : KeyPart) (field : String) (declared : FieldType),
    key[position]? = some part → (plan.keyFields plan.probeSide)[position]? = some field →
    (plan.join.table plan.probeSide).mapping.get? field = some declared → part.fits declared = true

/-- The documents of the build side call for a probe, and there is a request for it. -/
structure NeedsProbe (plan : HashJoin) (build : List Document) : Prop where
  /-- Some document has a key. -/
  exists_key : ∃ doc ∈ build, ∃ key, plan.keyOf? plan.options.buildSide doc = some key
  /-- The probed side can have all of the keys. -/
  fits : ∀ doc ∈ build, ∀ key, plan.keyOf? plan.options.buildSide doc = some key →
    plan.FitsProbe key
  /-- The probe can be sent. -/
  exists_request : ∃ request, plan.probeRequest (plan.buildTable build) = .ok request

theorem keyMismatch?_eq_none_iff {key : Key} :
    plan.keyMismatch? key = none ↔ plan.FitsProbe key := by
  rw [keyMismatch?, List.findSome?_eq_none_iff]
  constructor
  · intro h position part field declared hpart hfield hdeclared
    rw [keyFields, List.getElem?_map, Option.map_eq_some_iff] at hfield
    obtain ⟨pair, hpair, rfl⟩ := hfield
    have hzip : (key.zip plan.keys)[position]? = some (part, pair) :=
      List.getElem?_zip_eq_some.2 ⟨hpart, hpair⟩
    have hnone := h _ (List.mem_of_getElem? hzip)
    simpa [hdeclared] using hnone
  · rintro h ⟨part, pair⟩ hmem
    obtain ⟨position, hzip⟩ := List.mem_iff_getElem?.1 hmem
    obtain ⟨hpart, hpair⟩ := List.getElem?_zip_eq_some.1 hzip
    dsimp only
    split
    · rename_i declared hdeclared
      have hfield : (plan.keyFields plan.probeSide)[position]? = some (pair.field plan.probeSide) := by
        rw [keyFields, List.getElem?_map, hpair]
        rfl
      rw [if_pos (h position part _ declared hpart hfield hdeclared)]
    · rfl

/-- No key of the table is reported exactly when all keys of the documents fit. -/
theorem findSome?_keyMismatch?_eq_none_iff :
    (plan.buildTable build).keys.findSome? plan.keyMismatch? = none ↔
      ∀ doc ∈ build, ∀ key, plan.keyOf? plan.options.buildSide doc = some key →
        plan.FitsProbe key := by
  rw [List.findSome?_eq_none_iff]
  constructor
  · intro h doc hdoc key hkey
    exact keyMismatch?_eq_none_iff.1 (h key (KeyTable.mem_keys_ofDocuments.2 ⟨doc, hdoc, hkey⟩))
  · intro h key hmem
    obtain ⟨doc, hdoc, hkey⟩ := KeyTable.mem_keys_ofDocuments.1 hmem
    exact keyMismatch?_eq_none_iff.2 (h doc hdoc key hkey)

/-- The result of a run, from the answer of the probed side on. -/
def probeResult (plan : HashJoin) (build : List Document) :
    Except Error Hits → Except Error (List Row)
  | .error e => .error ((plan.join.table plan.probeSide).failure e)
  | .ok hits => plan.finish (plan.buildTable build) build hits.hits

/-- With the answer of the probed side there is no mismatch of keys left to find: either the search has
failed, or what can fail is the test of a pair. -/
theorem probeResult_ne_joinKeyMismatch (answer : Except Error Hits) (first second : KeySide) :
    plan.probeResult build answer ≠ .error (.joinKeyMismatch first second) := by
  intro h
  cases answer with
  | error e => cases h
  | ok hits => cases faultsOnly_collect _ _ _ _ h

/-- Where the documents call for a probe it is sent, and the run is over with the answer. -/
theorem afterBuild_of_needsProbe (h : plan.NeedsProbe build) :
    ∃ probe, plan.probeRequest (plan.buildTable build) = .ok probe ∧
      plan.afterBuild build = .search probe fun answer => .done (plan.probeResult build answer) := by
  obtain ⟨⟨doc, hdoc, key, hkey⟩, hfits, probe, hprobe⟩ := h
  have hkeys : ¬ (plan.buildTable build).isEmpty = true := by
    intro hempty
    rw [keyOf?, KeyTable.isEmpty_ofDocuments.1 hempty doc hdoc] at hkey
    cases hkey
  refine ⟨probe, hprobe, ?_⟩
  rw [← findSome?_keyMismatch?_eq_none_iff] at hfits
  rw [buildTable] at hkeys hfits hprobe
  rw [afterBuild, if_neg hkeys, hfits, hprobe]
  refine congrArg (Session.search probe) (funext fun answer => ?_)
  cases answer <;> rfl

/-- Where they do not, the run is over. -/
theorem afterBuild_of_not_needsProbe (h : ¬ plan.NeedsProbe build) :
    ∃ result, plan.afterBuild build = .done result := by
  unfold afterBuild
  dsimp only
  split
  · exact ⟨_, rfl⟩
  · rename_i hkeys
    split
    · exact ⟨_, rfl⟩
    · rename_i hfits
      cases hprobe : plan.probeRequest (plan.buildTable build) with
      | error e =>
        rw [buildTable] at hprobe
        rw [hprobe]
        exact ⟨_, rfl⟩
      | ok probe =>
        refine absurd ⟨?_, findSome?_keyMismatch?_eq_none_iff.1 hfits, probe, hprobe⟩ h
        by_contra hnone
        refine hkeys (KeyTable.isEmpty_ofDocuments.2 fun doc hdoc => ?_)
        refine Option.eq_none_iff_forall_ne_some.2 fun key hkey => ?_
        exact hnone ⟨doc, hdoc, key, hkey⟩

/-- What a run can do: its result and the calls that it makes. -/
inductive Runs (plan : HashJoin) (backend : Backend) (calls : List Call) :
    Except Error (List Row) → List Call → Prop where
  /-- No row is asked for. -/
  | noRow (hlimit : plan.options.totalLimit = some 0) : Runs plan backend calls (.ok []) []
  /-- The build side has no request. -/
  | noRequest (e : Error) (hlimit : plan.options.totalLimit ≠ some 0)
    (hrequest : plan.sideRequest plan.options.buildSide = .error e) :
    Runs plan backend calls (.error e) []
  /-- The search of the build side fails. -/
  | failed (request : Request) (e : Error) (hlimit : plan.options.totalLimit ≠ some 0)
    (hrequest : plan.sideRequest plan.options.buildSide = .ok request)
    (hfailed : backend.search calls request = .error e) :
    Runs plan backend calls (.error ((plan.join.table plan.options.buildSide).failure e))
      [.search request]
  /-- The documents of the build side do not call for a probe. -/
  | unprobed (request : Request) (hits : Hits) (result) (hlimit : plan.options.totalLimit ≠ some 0)
    (hrequest : plan.sideRequest plan.options.buildSide = .ok request)
    (hhits : backend.search calls request = .ok hits) (hneeds : ¬ plan.NeedsProbe hits.hits)
    (hdone : plan.afterBuild hits.hits = .done result) :
    Runs plan backend calls result [.search request]
  /-- Both sides are searched. -/
  | probed (request : Request) (hits : Hits) (probe : Request) (hlimit : plan.options.totalLimit ≠ some 0)
    (hrequest : plan.sideRequest plan.options.buildSide = .ok request)
    (hhits : backend.search calls request = .ok hits) (hneeds : plan.NeedsProbe hits.hits)
    (hprobe : plan.probeRequest (plan.buildTable hits.hits) = .ok probe) :
    Runs plan backend calls
      (plan.probeResult hits.hits (backend.search (calls ++ [.search request]) probe))
      [.search request, .search probe]

theorem runs_session (plan : HashJoin) (backend : Backend) (calls : List Call) :
    ∃ result sent, plan.session.run backend calls = (result, calls ++ sent) ∧
      plan.Runs backend calls result sent := by
  unfold session
  split
  · rename_i hlimit
    exact ⟨.ok [], [], by rw [Session.run, List.append_nil], .noRow hlimit⟩
  · rename_i hlimit
    cases hrequest : plan.sideRequest plan.options.buildSide with
    | error e => exact ⟨.error e, [], by rw [List.append_nil]; rfl, .noRequest e hlimit hrequest⟩
    | ok request =>
      rw [Session.ofExcept, Session.run]
      cases hanswer : backend.search calls request with
      | error e => exact ⟨_, [.search request], rfl, .failed request e hlimit hrequest hanswer⟩
      | ok hits =>
        dsimp only
        by_cases hneeds : plan.NeedsProbe hits.hits
        · obtain ⟨probe, hprobe, hafter⟩ := afterBuild_of_needsProbe hneeds
          rw [hafter, Session.run, Session.run, List.append_assoc]
          exact ⟨_, _, rfl, .probed request hits probe hlimit hrequest hanswer hneeds hprobe⟩
        · obtain ⟨result, hafter⟩ := afterBuild_of_not_needsProbe hneeds
          rw [hafter, Session.run]
          exact ⟨_, _, rfl, .unprobed request hits result hlimit hrequest hanswer hneeds hafter⟩

namespace Runs

variable {result : Except Error (List Row)} {sent : List Call}

theorem multiSearch?_eq_none (h : plan.Runs backend calls result sent) :
    ∀ call ∈ sent, call.multiSearch? = none := by
  cases h <;> simp [Call.multiSearch?]

theorem length_le_two (h : plan.Runs backend calls result sent) : sent.length ≤ 2 := by
  cases h <;> simp

theorem of_totalLimit_eq_zero (h : plan.Runs backend calls result sent)
    (hzero : plan.options.totalLimit = some 0) : result = .ok [] ∧ sent = [] := by
  cases h with
  | noRow => exact ⟨rfl, rfl⟩
  | noRequest _ hlimit => exact absurd hzero hlimit
  | failed _ _ hlimit => exact absurd hzero hlimit
  | unprobed _ _ _ hlimit => exact absurd hzero hlimit
  | probed _ _ _ hlimit => exact absurd hzero hlimit

/-- The search of the build side goes out where there is a request for it. -/
theorem first_of_sideRequest_eq_ok (h : plan.Runs backend calls result sent)
    (hlimit : plan.options.totalLimit ≠ some 0) {request : Request}
    (hok : plan.sideRequest plan.options.buildSide = .ok request) : sent[0]? = some (.search request) := by
  cases h with
  | noRow hzero => exact absurd hzero hlimit
  | noRequest e _ hrequest => cases hrequest.symm.trans hok
  | failed _ _ _ hrequest | unprobed _ _ _ _ hrequest | probed _ _ _ _ hrequest =>
    cases hrequest.symm.trans hok
    rfl

theorem of_sideRequest_eq_error (h : plan.Runs backend calls result sent)
    (hlimit : plan.options.totalLimit ≠ some 0) {e : Error}
    (herror : plan.sideRequest plan.options.buildSide = .error e) : result = .error e ∧ sent = [] := by
  cases h with
  | noRow hzero => exact absurd hzero hlimit
  | noRequest e' _ hrequest =>
    cases hrequest.symm.trans herror
    exact ⟨rfl, rfl⟩
  | failed _ _ _ hrequest | unprobed _ _ _ _ hrequest | probed _ _ _ _ hrequest =>
    cases hrequest.symm.trans herror

/-- The build side is asked first, and what comes then is the probe with its keys. -/
theorem requests (h : plan.Runs backend calls result sent) {request : Request}
    (hfirst : sent[0]? = some (.search request)) :
    plan.sideRequest plan.options.buildSide = .ok request ∧
      ∀ build, backend.search calls request = .ok build → ∀ probe,
        sent[1]? = some (.search probe) →
          plan.probeRequest (plan.buildTable build.hits) = .ok probe := by
  cases h with
  | noRow => cases hfirst
  | noRequest => cases hfirst
  | failed _ _ _ hrequest =>
    cases hfirst
    exact ⟨hrequest, fun _ _ _ hprobe => by cases hprobe⟩
  | unprobed _ _ _ _ hrequest =>
    cases hfirst
    exact ⟨hrequest, fun _ _ _ hprobe => by cases hprobe⟩
  | probed _ hits probe _ hrequest hhits _ hprobe =>
    cases hfirst
    refine ⟨hrequest, fun build hbuild other hother => ?_⟩
    cases hother
    cases hhits.symm.trans hbuild
    exact hprobe

theorem length_eq_two_iff (h : plan.Runs backend calls result sent) :
    sent.length = 2 ↔ ∃ request build, sent[0]? = some (.search request) ∧
      backend.search calls request = .ok build ∧ plan.NeedsProbe build.hits := by
  cases h with
  | noRow => simp
  | noRequest => simp
  | failed _ _ _ _ hfailed =>
    refine iff_of_false (by simp) ?_
    rintro ⟨_, _, hfirst, hbuild, -⟩
    cases hfirst
    cases hfailed.symm.trans hbuild
  | unprobed _ _ _ _ _ hhits hneeds =>
    refine iff_of_false (by simp) ?_
    rintro ⟨_, _, hfirst, hbuild, hprobe⟩
    cases hfirst
    cases hhits.symm.trans hbuild
    exact hneeds hprobe
  | probed request hits _ _ _ hhits hneeds =>
    exact iff_of_true rfl ⟨request, hits, rfl, hhits, hneeds⟩

theorem length_le_one (h : plan.Runs backend calls result sent) {first second : KeySide}
    (hresult : result = .error (.joinKeyMismatch first second)) : sent.length ≤ 1 := by
  cases h with
  | noRow => exact Nat.zero_le 1
  | noRequest => exact Nat.zero_le 1
  | failed => exact Nat.le_refl 1
  | unprobed => exact Nat.le_refl 1
  | probed => exact absurd hresult (probeResult_ne_joinKeyMismatch _ _ _)

end Runs

/-- A hash join sends searches only, at most two of them. A statement that the check rejects sends none and
ends with the error of the check, whatever its limit is, and neither does one whose limit is zero, which has
no rows. Else the search of the build side goes out first, or the run ends with the error of its request. The
second search is the probe, which is sent exactly when the first one was answered and the documents call for
it. Keys that cannot be equal are found before it. -/
theorem exists_sent (join : Join) (options : JoinOptions) (backend : Backend) (calls : List Call) :
    ∃ result sent,
      (Session.ofExcept (ofJoin join options) session).run backend calls = (result, calls ++ sent) ∧
      (∀ call ∈ sent, call.multiSearch? = none) ∧ sent.length ≤ 2 ∧
      (∀ e, ofJoin join options = .error e → result = .error e ∧ sent = []) ∧
      (∀ plan, ofJoin join options = .ok plan →
        (options.totalLimit = some 0 → result = .ok [] ∧ sent = []) ∧
        (options.totalLimit ≠ some 0 →
          (∀ request, plan.sideRequest options.buildSide = .ok request →
            sent[0]? = some (.search request)) ∧
          ∀ e, plan.sideRequest options.buildSide = .error e → result = .error e ∧ sent = []) ∧
        (∀ request, sent[0]? = some (.search request) →
          plan.sideRequest options.buildSide = .ok request ∧
          ∀ build, backend.search calls request = .ok build → ∀ probe,
            sent[1]? = some (.search probe) →
              plan.probeRequest (plan.buildTable build.hits) = .ok probe) ∧
        (sent.length = 2 ↔ ∃ request build, sent[0]? = some (.search request) ∧
          backend.search calls request = .ok build ∧ plan.NeedsProbe build.hits)) ∧
      ∀ first second, result = .error (.joinKeyMismatch first second) → sent.length ≤ 1 := by
  cases hplan : ofJoin join options with
  | error e =>
    refine ⟨.error e, [], by rw [List.append_nil]; rfl, List.forall_mem_nil _, Nat.zero_le 2, ?_, ?_, ?_⟩
    · rintro _ ⟨⟩
      exact ⟨rfl, rfl⟩
    · rintro _ ⟨⟩
    · exact fun _ _ _ => Nat.zero_le 1
  | ok plan =>
    obtain ⟨keys, -, rfl⟩ := exists_keys_of_ofJoin_eq_ok hplan
    obtain ⟨result, sent, hrun, hruns⟩ := runs_session ⟨join, options, keys⟩ backend calls
    refine ⟨result, sent, hrun, hruns.multiSearch?_eq_none, hruns.length_le_two, ?_, ?_, ?_⟩
    · rintro _ ⟨⟩
    · rintro _ ⟨⟩
      refine ⟨hruns.of_totalLimit_eq_zero, fun hlimit => ?_, fun _ => hruns.requests,
        hruns.length_eq_two_iff⟩
      exact ⟨fun _ => hruns.first_of_sideRequest_eq_ok hlimit, fun _ => hruns.of_sideRequest_eq_error hlimit⟩
    · exact fun _ _ => hruns.length_le_one

/-- Some of the users have an identifier, so their orders are searched too. -/
theorem exists_sent_sample :
    ∃ plan build, ofJoin Sample.join (Sample.options .first none) = .ok plan ∧
      plan.sideRequest .first = .ok (Sample.search "users" "active" (.bool true)) ∧
      (Backend.finding fun request => Sample.stored request.index).search []
        (Sample.search "users" "active" (.bool true)) = .ok build ∧
      build.hits = Sample.stored "users" ∧ plan.NeedsProbe build.hits ∧
      plan.probeRequest (plan.buildTable build.hits) = .ok Sample.probe ∧
      ((Session.ofExcept (ofJoin Sample.join (Sample.options .first none)) session).run
        (.finding fun request => Sample.stored request.index) []).2 =
          [.search (Sample.search "users" "active" (.bool true)), .search Sample.probe] := by
  have hplan : ofJoin Sample.join (Sample.options .first none) = .ok (Sample.hash .first none) := rfl
  obtain ⟨result, sent, hrun, -, -, -, hplans, -⟩ := exists_sent Sample.join (Sample.options .first none)
    (.finding fun request => Sample.stored request.index) []
  obtain ⟨-, hsends, hrequests, hlength⟩ := hplans _ hplan
  have hfirst := (hsends (by decide)).1 _ rfl
  have hsent : sent = [.search (Sample.search "users" "active" (.bool true)), .search Sample.probe] :=
    (congrArg Prod.snd hrun).symm
  obtain ⟨request, build, hfound, hbuild, hneeds⟩ := hlength.1 (congrArg List.length hsent)
  cases hfirst.symm.trans hfound
  obtain ⟨hside, hprobes⟩ := hrequests _ hfirst
  have hprobe := hprobes build hbuild Sample.probe (congrArg (·[1]?) hsent)
  refine ⟨_, build, hplan, hside, hbuild, ?_, hneeds, hprobe, ?_⟩
  · cases hbuild
    rfl
  · rw [hrun, List.nil_append, hsent]

end SearchJoin.HashJoin
