import SearchJoin.Settings.Check
import SearchJoin.Proofs.Join.Options
import SearchJoin.Proofs.Statement.HintText

/-!
# The sizes of a join

A statement is refused for a size of zero, but the limits of the tables are looked at before the hints: a hint
that sets them to zero passes, and one that sets them does not help a default of zero. With settings that have
been checked and hints that have been read no size is zero.

Main statements: `JoinOptions.resolve_refuses_iff`, `JoinOptions.exists_resolve_of_check`.
-/

namespace SearchJoin

namespace Hint

variable {hint : Hint}

theorem mem_counts_of_size? {size : UInt64} (h : hint.size? = some size) : size ∈ hint.counts := by
  cases hint with
  | multiSearchSize => cases h; exact List.mem_singleton_self _
  | forceNestedLoop | joinLimit | hashBuildSide => cases h

theorem mem_counts_of_limits? {limits : UInt64 × UInt64} (h : hint.limits? = some limits) :
    limits.1 ∈ hint.counts ∧ limits.2 ∈ hint.counts := by
  cases hint with
  | joinLimit first second =>
    cases h
    exact ⟨List.mem_cons_self, List.mem_cons_of_mem _ List.mem_cons_self⟩
  | forceNestedLoop | multiSearchSize | hashBuildSide => cases h

end Hint

namespace Settings

variable {settings : Settings}

theorem fault_eq_none_of_check (h : settings.check = .ok ()) :
    ∀ fault ∈ settings.faults, fault.2 = none := by
  unfold check at h
  dsimp only at h
  split at h
  · rename_i hnone
    intro fault hfault
    exact Option.map_eq_none_iff.1 (List.findSome?_eq_none_iff.1 hnone fault hfault)
  · cases h

theorem pos_of_sizeFault?_eq_none {size : UInt64} (h : sizeFault? size = none) : 0 < size := by
  unfold sizeFault? at h
  split at h
  · cases h
  · rename_i hne
    exact UInt64.pos_iff_ne_zero.2 hne

/-- Settings that have been checked have positive sizes. -/
theorem pos_of_check (h : settings.check = .ok ()) :
    0 < settings.join.multiSearchMaxSize ∧ 0 < settings.join.defaultTableLimit ∧
      0 < settings.join.maxConcurrentBatches ∧ settings.join.maxConcurrentBatches ≤ 64 := by
  have hfaults := fault_eq_none_of_check h
  simp only [faults, List.forall_mem_cons] at hfaults
  obtain ⟨hsize, htable, hbatches, -⟩ := hfaults
  refine ⟨pos_of_sizeFault?_eq_none hsize, pos_of_sizeFault?_eq_none htable, ?_⟩
  unfold batchesFault? at hbatches
  split at hbatches
  · rename_i hrange
    exact ⟨UInt64.lt_iff_toNat_lt.2 hrange.1, UInt64.le_iff_toNat_le.2 hrange.2⟩
  · cases hbatches

end Settings

/-- A join without a condition. -/
def Sample.hinted (hints : List Hint) (limit : Option UInt64) : Join :=
  ⟨⟨"a", "users", [], none, .empty⟩, ⟨"b", "orders", [], none, .empty⟩, [], none, hints, limit⟩

namespace JoinOptions

variable {settings : JoinSettings} {join : Join} {options : JoinOptions}

theorem error_of_requirePositive {key : String} {size : UInt64} {e : Error} (h : requirePositive key size = .error e) :
    ∃ reason, e = .config reason := by
  unfold requirePositive at h
  split at h
  · cases h
    exact ⟨_, rfl⟩
  · cases h

theorem errorsIn_resolve (settings : JoinSettings) (join : Join) :
    ErrorsIn (fun e => ∃ reason, e = .config reason) (resolve settings join) := by
  have hrequire : ∀ key size, ErrorsIn (fun e => ∃ reason, e = Error.config reason)
      (requirePositive key size) := fun _ _ _ => error_of_requirePositive
  refine (hrequire _ _).bind fun _ _ => ?_
  refine (hrequire _ _).bind fun _ _ => ?_
  exact (hrequire _ _).bind fun _ _ => ErrorsIn.ok _

/-- Options are refused for the number of sub-queries in a call, the number of calls in flight and what would
be the limit of a table without the hints. -/
theorem exists_resolve_eq_config_iff (settings : JoinSettings) (join : Join) :
    (∃ reason, resolve settings join = .error (.config reason)) ↔
      (hinted settings join).batchSize = 0 ∨ (hinted settings join).maxConcurrentBatches = 0 ∨
        tableLimit settings join = 0 := by
  constructor
  · rintro ⟨reason, hrefused⟩
    by_contra hpositive
    simp only [not_or] at hpositive
    obtain ⟨hsize, hbatches, htable⟩ := hpositive
    cases hrefused.symm.trans (resolve_eq_ok_iff.2 ⟨hsize, hbatches, htable, rfl⟩)
  · intro hzero
    cases hresolve : resolve settings join with
    | ok options =>
      obtain ⟨hsize, hbatches, htable, -⟩ := resolve_eq_ok_iff.1 hresolve
      rcases hzero with hzero | hzero | hzero
      · exact absurd hzero hsize
      · exact absurd hzero hbatches
      · exact absurd hzero htable
    | error e =>
      obtain ⟨reason, rfl⟩ := errorsIn_resolve settings join e hresolve
      exact ⟨reason, rfl⟩

/-- Which sizes a statement is refused for. It is when the number of sub-queries in a call, the number of calls
in flight or what would be the limit of a table without the hints is zero. To look at the limits after the
hints comes to the same exactly when, for the last hint that sets the limits, one of the other two sizes is
zero or both ways of looking find a limit of zero or neither does. Else the two other sizes are positive, and so
are the limits unless that hint sets one to zero. -/
theorem resolve_refuses_iff (settings : JoinSettings) (join : Join) :
    let table := tableLimit settings join
    let size := (Hint.lastOf? Hint.size? join.hints).getD settings.multiSearchMaxSize
    let batches := settings.maxConcurrentBatches
    let limits := (Hint.lastOf? Hint.limits? join.hints).getD (table, table)
    let refused := ∃ reason, resolve settings join = .error (.config reason)
    (refused ↔ size = 0 ∨ batches = 0 ∨ table = 0) ∧
    ((refused ↔ size = 0 ∨ batches = 0 ∨ limits.1 = 0 ∨ limits.2 = 0) ↔
      ∀ pair, Hint.lastOf? Hint.limits? join.hints = some pair →
        size = 0 ∨ batches = 0 ∨ (table = 0 ↔ pair.1 = 0 ∨ pair.2 = 0)) ∧
    ∀ options, resolve settings join = .ok options →
      options.batchSize = size ∧ options.maxConcurrentBatches = batches ∧
        (options.firstLimit, options.secondLimit) = limits ∧ 0 < size ∧ 0 < batches ∧
        (0 < limits.1 ∧ 0 < limits.2 ↔
          ∀ pair, Hint.lastOf? Hint.limits? join.hints = some pair → 0 < pair.1 ∧ 0 < pair.2) := by
  intro table size batches limits refused
  have hclosed := hinted_eq settings join
  have hrefused : refused ↔ size = 0 ∨ batches = 0 ∨ table = 0 := by
    have hiff := exists_resolve_eq_config_iff settings join
    rw [hclosed] at hiff
    exact hiff
  refine ⟨hrefused, ?agree, ?accepted⟩
  case agree =>
    -- Without a hint for the limits both of them are the limit that is looked at.
    have hdefault : refused ↔ size = 0 ∨ batches = 0 ∨ table = 0 ∨ table = 0 := by
      rw [hrefused, or_self]
    refine (getD_iff (P := fun pair : UInt64 × UInt64 => refused ↔
      size = 0 ∨ batches = 0 ∨ pair.1 = 0 ∨ pair.2 = 0) hdefault).trans (forall₂_congr fun pair _ => ?_)
    rw [hrefused]
    by_cases hsize : size = 0
    · simp only [hsize, true_or]
    · by_cases hbatches : batches = 0
      · simp only [hbatches, true_or, or_true]
      · simp only [hsize, hbatches, false_or]
  case accepted =>
    intro options h
    obtain ⟨hsize, hbatches, htable, rfl⟩ := resolve_eq_ok_iff.1 h
    have hpos : 0 < table := UInt64.pos_iff_ne_zero.2 htable
    rw [hclosed] at hsize hbatches ⊢
    refine ⟨rfl, rfl, rfl, UInt64.pos_iff_ne_zero.2 hsize, UInt64.pos_iff_ne_zero.2 hbatches, ?_⟩
    exact getD_iff (P := fun pair : UInt64 × UInt64 => 0 < pair.1 ∧ 0 < pair.2) ⟨hpos, hpos⟩

/-- The limits of the tables are looked at before the hint that sets one to zero, and a default of zero counts
although a hint sets both. -/
theorem resolve_checks_unhinted_limit :
    (∃ options, resolve {} (Sample.hinted [.joinLimit 0 5] none) = .ok options ∧ options.firstLimit = 0) ∧
      ∃ reason, resolve { defaultTableLimit := 0 } (Sample.hinted [.joinLimit 5 5] none) =
        .error (.config reason) :=
  ⟨⟨_, rfl, rfl⟩, _, rfl⟩

/-- A statement whose hints have been read has options under settings that have been checked. No size of them
is zero, and each option is what the last hint for it says, else what the limit of the statement or the
settings say. -/
theorem exists_resolve_of_check {settings : Settings} {join : Join} (hsettings : settings.check = .ok ())
    (hhints : ∀ hint ∈ join.hints, ∃ text, Hint.parse text = .ok hint) :
    let table := match join.limit with
      | some limit => if 0 < limit then limit else settings.join.defaultTableLimit
      | none => settings.join.defaultTableLimit
    ∃ options, resolve settings.join join = .ok options ∧
      (0 < options.batchSize ∧ 0 < options.maxConcurrentBatches ∧ 0 < options.firstLimit ∧
        0 < options.secondLimit) ∧
      options.totalLimit = join.limit ∧
      options.batchSize = (Hint.lastOf? Hint.size? join.hints).getD settings.join.multiSearchMaxSize ∧
      options.maxConcurrentBatches = settings.join.maxConcurrentBatches ∧
      options.maxConcurrentBatches ≤ 64 ∧
      (options.firstLimit, options.secondLimit) =
        (Hint.lastOf? Hint.limits? join.hints).getD (table, table) ∧
      options.buildSide = (Hint.lastOf? Hint.buildSide? join.hints).getD .first := by
  intro table
  obtain ⟨hmaxSize, hdefault, hbatches, hmost⟩ := Settings.pos_of_check hsettings
  have hcounts : ∀ hint ∈ join.hints, ∀ n ∈ hint.counts, 0 < n := by
    intro hint hhint
    obtain ⟨text, hparse⟩ := hhints hint hhint
    exact Hint.pos_of_parse_eq_ok hparse
  have htable : tableLimit settings.join join = table := tableLimit_eq settings.join join
  have htablePos : 0 < table := by
    simp only [table]
    split
    · split
      · assumption
      · exact hdefault
    · exact hdefault
  have hsize : 0 < (Hint.lastOf? Hint.size? join.hints).getD settings.join.multiSearchMaxSize :=
    Hint.getD_lastOf? hmaxSize fun hint hhint size hsaid =>
      hcounts hint hhint size (Hint.mem_counts_of_size? hsaid)
  have hlimits : 0 < ((Hint.lastOf? Hint.limits? join.hints).getD (table, table)).1 ∧
      0 < ((Hint.lastOf? Hint.limits? join.hints).getD (table, table)).2 := by
    refine Hint.getD_lastOf? (P := fun limits : UInt64 × UInt64 => 0 < limits.1 ∧ 0 < limits.2)
      ⟨htablePos, htablePos⟩ ?_
    intro hint hhint limits hsaid
    obtain ⟨hfirst, hsecond⟩ := Hint.mem_counts_of_limits? hsaid
    exact ⟨hcounts hint hhint _ hfirst, hcounts hint hhint _ hsecond⟩
  have hclosed := hinted_eq settings.join join
  rw [htable] at hclosed
  have hresolve : resolve settings.join join = .ok (hinted settings.join join) := by
    refine resolve_eq_ok_iff.2 ⟨?_, ?_, ?_, rfl⟩
    · rw [hclosed]
      exact UInt64.pos_iff_ne_zero.1 hsize
    · rw [hclosed]
      exact UInt64.pos_iff_ne_zero.1 hbatches
    · rw [htable]
      exact UInt64.pos_iff_ne_zero.1 htablePos
  refine ⟨_, hresolve, ?_⟩
  rw [hclosed]
  exact ⟨⟨hsize, hbatches, hlimits.1, hlimits.2⟩, rfl, rfl, rfl, hmost, rfl, rfl⟩

/-- Of two hints for the limits the last counts; the limit of the statement, which is zero, does not. -/
theorem exists_resolve_of_check_sample :
    let hints := [.joinLimit 3 40, .multiSearchSize 7, .joinLimit 5 6]
    Settings.check {} = .ok () ∧ (∀ hint ∈ hints, ∃ text, Hint.parse text = .ok hint) ∧
      ∃ options, resolve {} (Sample.hinted hints (some 0)) = .ok options ∧ options.batchSize = 7 ∧
        options.firstLimit = 5 ∧ options.secondLimit = 6 ∧ options.buildSide = .first ∧
        options.totalLimit = some 0 := by
  intro hints
  have hsettings : Settings.check {} = .ok () := rfl
  have hhints : ∀ hint ∈ (Sample.hinted hints (some 0)).hints, ∃ text, Hint.parse text = .ok hint := by
    have hfirst : Hint.parse "JOIN_LIMIT(3, 40)" = .ok (.joinLimit 3 40) := by
      rw [Hint.parse, Hint.stripComment_of_plain rfl (by decide) (by decide) (by decide)]
      rfl
    have hsize : Hint.parse "NL_MULTISEARCH_SIZE(7)" = .ok (.multiSearchSize 7) := by
      rw [Hint.parse, Hint.stripComment_of_plain rfl (by decide) (by decide) (by decide)]
      rfl
    have hlast : Hint.parse "JOIN_LIMIT(5, 6)" = .ok (.joinLimit 5 6) := by
      rw [Hint.parse, Hint.stripComment_of_plain rfl (by decide) (by decide) (by decide)]
      rfl
    exact List.forall_mem_cons.2 ⟨⟨_, hfirst⟩, List.forall_mem_cons.2 ⟨⟨_, hsize⟩,
      List.forall_mem_singleton.2 ⟨_, hlast⟩⟩⟩
  obtain ⟨options, hresolve, -, htotal, hbatch, -, -, hlimits, hside⟩ :=
    exists_resolve_of_check hsettings hhints
  exact ⟨hsettings, hhints, options, hresolve, hbatch, congrArg Prod.fst hlimits,
    congrArg Prod.snd hlimits, hside, htotal⟩

end JoinOptions

end SearchJoin
