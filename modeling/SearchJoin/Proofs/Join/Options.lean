import SearchJoin.Join.Options
import SearchJoin.Proofs.Except
import Mathlib.Data.List.Induction

/-!
# The options of a join

Which options a statement has: each is what the last hint for it says, else what the statement and the
settings say. Without a hint the limit of a statement counts for both tables.

Main statements: `JoinOptions.hinted_eq`, `JoinOptions.resolve_eq_ok_iff`, `JoinOptions.resolve_withLimit`.
-/

namespace SearchJoin

theorem getD_iff {α : Type} {P : α → Prop} {x? : Option α} {x : α} (hx : P x) :
    P (x?.getD x) ↔ ∀ y, x? = some y → P y := by
  cases x? with
  | none => exact iff_of_true hx nofun
  | some y => exact ⟨fun hy _ h => Option.some.inj h ▸ hy, fun h => h y rfl⟩

namespace Hint

/-- The number of sub-queries in one call that a hint asks for. -/
def size? : Hint → Option UInt64
  | .multiSearchSize size => some size
  | _ => none

/-- The limits of both tables that a hint asks for. -/
def limits? : Hint → Option (UInt64 × UInt64)
  | .joinLimit first second => some (first, second)
  | _ => none

/-- The side that a hint names. -/
def buildSide? : Hint → Option Side
  | .hashBuildSide side => some side
  | _ => none

/-- What the last of the hints says that say something of a kind. -/
def lastOf? {α : Type} (said? : Hint → Option α) (hints : List Hint) : Option α :=
  (hints.filterMap said?).getLast?

variable {α : Type} {said? : Hint → Option α} {hints : List Hint} {hint : Hint} {x : α}

theorem lastOf?_concat : lastOf? said? (hints ++ [hint]) = (said? hint).or (lastOf? said? hints) := by
  unfold lastOf?
  rw [List.filterMap_append, List.getLast?_append]
  cases hsaid : said? hint with
  | none => rw [List.filterMap_cons_none hsaid]; rfl
  | some x => rw [List.filterMap_cons_some hsaid]; rfl

theorem getD_lastOf? {P : α → Prop} (hx : P x) (hsaid : ∀ hint ∈ hints, ∀ y, said? hint = some y → P y) :
    P ((lastOf? said? hints).getD x) := by
  refine (getD_iff hx).2 fun y hlast => ?_
  obtain ⟨hint, hhint, hy⟩ := List.mem_filterMap.1 (List.mem_of_getLast? hlast)
  exact hsaid hint hhint y hy

theorem lastOf?_limits?_eq_none (hhints : ∀ hint ∈ hints, hint.kind ≠ .joinLimit) :
    lastOf? limits? hints = none := by
  have hnone : hints.filterMap limits? = [] := by
    refine List.filterMap_eq_nil_iff.2 fun hint hhint => ?_
    cases hint with
    | joinLimit first second => exact absurd rfl (hhints _ hhint)
    | forceNestedLoop | multiSearchSize | hashBuildSide => rfl
  rw [lastOf?, hnone]
  rfl

end Hint

/-- The join with a limit. -/
def Join.withLimit (join : Join) (limit : UInt64) : Join := { join with limit := some limit }

theorem Join.table_withLimit (join : Join) (limit : UInt64) (side : Side) :
    (join.withLimit limit).table side = join.table side := by
  cases side with
  | first => rfl
  | second => rfl

namespace JoinOptions

/-- The options with a limit for what is fetched of each table and for what is returned. -/
def withLimit (options : JoinOptions) (limit : UInt64) : JoinOptions :=
  { options with firstLimit := limit, secondLimit := limit, totalLimit := some limit }

variable {settings : JoinSettings} {join : Join} {options : JoinOptions} {limit : UInt64}

theorem foldl_applyHint_eq (hints : List Hint) (options : JoinOptions) :
    hints.foldl applyHint options =
      { batchSize := (Hint.lastOf? Hint.size? hints).getD options.batchSize
        maxConcurrentBatches := options.maxConcurrentBatches
        firstLimit := ((Hint.lastOf? Hint.limits? hints).getD (options.firstLimit, options.secondLimit)).1
        secondLimit := ((Hint.lastOf? Hint.limits? hints).getD (options.firstLimit, options.secondLimit)).2
        buildSide := (Hint.lastOf? Hint.buildSide? hints).getD options.buildSide
        totalLimit := options.totalLimit } := by
  induction hints using List.reverseRecOn with
  | nil => rfl
  | append_singleton hints hint ih =>
    rw [List.foldl_append, ih]
    simp only [Hint.lastOf?_concat]
    cases hint <;> rfl

/-- The options in closed form. -/
theorem hinted_eq (settings : JoinSettings) (join : Join) :
    let table := tableLimit settings join
    hinted settings join =
      { batchSize := (Hint.lastOf? Hint.size? join.hints).getD settings.multiSearchMaxSize
        maxConcurrentBatches := settings.maxConcurrentBatches
        firstLimit := ((Hint.lastOf? Hint.limits? join.hints).getD (table, table)).1
        secondLimit := ((Hint.lastOf? Hint.limits? join.hints).getD (table, table)).2
        buildSide := (Hint.lastOf? Hint.buildSide? join.hints).getD .first
        totalLimit := join.limit } :=
  foldl_applyHint_eq join.hints (base settings join)

theorem requirePositive_eq_ok {key : String} {size : UInt64} :
    requirePositive key size = .ok () ↔ size ≠ 0 := by
  unfold requirePositive
  by_cases hsize : size = 0
  · simp [hsize]
  · simp [hsize]

/-- A statement has options when three sizes are positive. -/
theorem resolve_eq_ok_iff : resolve settings join = .ok options ↔
    (hinted settings join).batchSize ≠ 0 ∧ (hinted settings join).maxConcurrentBatches ≠ 0 ∧
      tableLimit settings join ≠ 0 ∧ hinted settings join = options := by
  unfold resolve
  simp only [bind_eq_ok, pure_eq_ok]
  constructor
  · rintro ⟨⟨⟩, hbatch, ⟨⟩, hpermits, ⟨⟩, htable, h⟩
    exact ⟨requirePositive_eq_ok.1 hbatch, requirePositive_eq_ok.1 hpermits,
      requirePositive_eq_ok.1 htable, h⟩
  · rintro ⟨hbatch, hpermits, htable, h⟩
    exact ⟨(), requirePositive_eq_ok.2 hbatch, (), requirePositive_eq_ok.2 hpermits, (),
      requirePositive_eq_ok.2 htable, h⟩

theorem tableLimit_eq (settings : JoinSettings) (join : Join) :
    tableLimit settings join =
      match join.limit with
      | some limit => if 0 < limit then limit else settings.defaultTableLimit
      | none => settings.defaultTableLimit := by
  unfold tableLimit
  cases join.limit with
  | none => rfl
  | some limit =>
    by_cases hlimit : 0 < limit
    · simp [Option.filter, hlimit]
    · simp [Option.filter, hlimit]

theorem tableLimit_withLimit (hlimit : limit ≠ 0) :
    tableLimit settings (join.withLimit limit) = limit := by
  rw [tableLimit_eq]
  exact if_pos (UInt64.pos_iff_ne_zero.2 hlimit)

/-- The limit of a statement becomes every limit, unless a hint sets those of the tables. -/
theorem resolve_withLimit (hhints : ∀ hint ∈ join.hints, hint.kind ≠ .joinLimit) (hlimit : limit ≠ 0)
    (h : resolve settings join = .ok options) :
    resolve settings (join.withLimit limit) = .ok (options.withLimit limit) := by
  obtain ⟨hbatch, hpermits, -, rfl⟩ := resolve_eq_ok_iff.1 h
  have hnone : Hint.lastOf? Hint.limits? (join.withLimit limit).hints = none :=
    Hint.lastOf?_limits?_eq_none hhints
  have hhinted : hinted settings (join.withLimit limit) = (hinted settings join).withLimit limit := by
    rw [hinted_eq, hinted_eq, hnone, tableLimit_withLimit hlimit]
    rfl
  refine resolve_eq_ok_iff.2 ⟨?_, ?_, ?_, hhinted⟩
  · rw [hhinted]
    exact hbatch
  · rw [hhinted]
    exact hpermits
  · rw [tableLimit_withLimit hlimit]
    exact hlimit

/-- Without a limit and a hint for it the settings say how much is fetched of a table. -/
theorem limit_of_resolve_eq_ok (hhints : ∀ hint ∈ join.hints, hint.kind ≠ .joinLimit)
    (hlimit : join.limit = none) (h : resolve settings join = .ok options) :
    (∀ side, options.limit side = settings.defaultTableLimit) ∧ options.totalLimit = none := by
  obtain ⟨-, -, -, rfl⟩ := resolve_eq_ok_iff.1 h
  have htable : tableLimit settings join = settings.defaultTableLimit := by
    rw [tableLimit_eq, hlimit]
  rw [hinted_eq, Hint.lastOf?_limits?_eq_none hhints, htable]
  refine ⟨fun side => ?_, hlimit⟩
  cases side with
  | first => rfl
  | second => rfl

end JoinOptions

end SearchJoin
