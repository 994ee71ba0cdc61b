import SearchJoin.Proofs.Statement.HintText
import SearchJoin.Proofs.Text.Blank

/-!
# The parameter lists of hints

The parameters of a hint stand between the first opening parenthesis and the last closing one, which nothing but
blanks may follow. The entries between the commas that are blank do not count, wherever they stand, so a list is
read although it has more entries than the hint has parameters.

Main statement: `Hint.parse_list_iff`.
-/

namespace SearchJoin.Hint

variable {name text : String} {parameters : List (List Char)} {hint : Hint}
  {cs before inside after : List Char}

/-- `inside` stands between the first opening parenthesis and the last closing one. -/
structure HasList (cs before inside after : List Char) : Prop where
  text : cs = before ++ '(' :: (inside ++ ')' :: after)
  first : '(' ∉ before
  last : ')' ∉ after

/-- The entries of a list that are not blank, without the blanks around them. -/
def filled (inside : List Char) : List (List Char) :=
  ((Text.split ',' inside).map Text.trim).filter (· ≠ [])

/-- How many parameters a hint has. -/
def arity : Hint → Nat
  | .forceNestedLoop => 0
  | .multiSearchSize _ => 1
  | .joinLimit _ _ => 2
  | .hashBuildSide _ => 1

/-- A list has one entry for each parameter and none of them is blank; it is all blank where there are no
parameters. -/
def FitsList (hint : Hint) (inside : List Char) : Prop :=
  if hint.arity = 0 then Text.Blank inside
  else (Text.split ',' inside).length = hint.arity ∧ ∀ entry ∈ Text.split ',' inside, ¬ Text.Blank entry

/-! ## Where the list stands -/

theorem ne_of_notMem {c : Char} (h : c ∉ cs) : ∀ d ∈ cs, decide (d ≠ c) = true :=
  fun _ hd => decide_eq_true fun hc => h (hc ▸ hd)

/-- Characters up to the first `c`, and what follows them. -/
theorem takeWhile_ne_of_notMem {c : Char} (h : c ∉ before) (rest : List Char) :
    (before ++ c :: rest).takeWhile (· ≠ c) = before ∧
      (before ++ c :: rest).dropWhile (· ≠ c) = c :: rest := by
  have hstop : ¬ decide (c ≠ c) = true := by simp
  refine ⟨?_, ?_⟩
  · rw [List.takeWhile_append_of_pos (ne_of_notMem h)]
    rw [List.takeWhile_cons_of_neg (p := fun d => decide (d ≠ c)) hstop, List.append_nil]
  · rw [List.dropWhile_append_of_pos (ne_of_notMem h)]
    exact List.dropWhile_cons_of_neg hstop

theorem dropWhile_ne_eq_nil {c : Char} (h : c ∉ cs) : cs.dropWhile (· ≠ c) = [] := by
  have hdrop : (cs ++ []).dropWhile (· ≠ c) = [] := List.dropWhile_append_of_pos (ne_of_notMem h)
  rw [List.append_nil] at hdrop
  exact hdrop

theorem parts?_of_notMem (h : '(' ∉ cs) : parts? cs = some (cs, []) := by
  unfold parts?
  rw [dropWhile_ne_eq_nil h]

theorem parts?_of_not_closed {rest : List Char} (hfirst : '(' ∉ before) (hrest : ')' ∉ rest) :
    parts? (before ++ '(' :: rest) = none := by
  have hreverse : ')' ∉ rest.reverse := mt List.mem_reverse.1 hrest
  unfold parts?
  rw [(takeWhile_ne_of_notMem hfirst rest).2]
  dsimp only
  rw [dropWhile_ne_eq_nil hreverse]

/-- A list is read when nothing but blanks follows it. -/
theorem parts?_of_hasList (h : HasList cs before inside after) :
    parts? cs = if after.reverse.all Text.isBlank then some (Text.trim before, filled inside) else none := by
  have hafter : ')' ∉ after.reverse := mt List.mem_reverse.1 h.last
  have hreverse : (inside ++ ')' :: after).reverse = after.reverse ++ ')' :: inside.reverse := by
    rw [List.reverse_append, List.reverse_cons, List.append_assoc]
    rfl
  obtain ⟨htake, hdrop⟩ := takeWhile_ne_of_notMem h.first (inside ++ ')' :: after)
  obtain ⟨htake', hdrop'⟩ := takeWhile_ne_of_notMem hafter inside.reverse
  rw [h.text]
  unfold parts?
  rw [hdrop, htake]
  dsimp only
  rw [hreverse, hdrop', htake']
  dsimp only
  rw [List.reverse_reverse]
  rfl

theorem parts?_eq_some_iff (h : HasList cs before inside after) {part : List Char × List (List Char)} :
    parts? cs = some part ↔ Text.Blank after ∧ part = (Text.trim before, filled inside) := by
  rw [parts?_of_hasList h, Option.ite_none_right_eq_some, Option.some.injEq, List.all_reverse, List.all_eq_true,
    eq_comm (a := part)]
  rfl

/-- What has an opening parenthesis and is read has a list. -/
theorem exists_hasList (hopen : '(' ∈ cs) {part : List Char × List (List Char)} (h : parts? cs = some part) :
    ∃ before inside after, HasList cs before inside after := by
  obtain ⟨before, rest, rfl, hfirst⟩ := List.eq_append_cons_of_mem hopen
  by_cases hclosed : ')' ∈ rest
  · obtain ⟨late, early, hreverse, hlast⟩ := List.eq_append_cons_of_mem (List.mem_reverse.2 hclosed)
    have hrest : rest = early.reverse ++ ')' :: late.reverse := by
      rw [← List.reverse_reverse rest, hreverse, List.reverse_append, List.reverse_cons, List.append_assoc]
      rfl
    exact ⟨before, early.reverse, late.reverse, by rw [hrest], hfirst, mt List.mem_reverse.1 hlast⟩
  · rw [parts?_of_not_closed hfirst hclosed] at h
    cases h

/-! ## What a hint is made of -/

/-- A name and parameters make a hint when they are what it needs. -/
theorem ofParts_eq_ok_iff : ofParts name parameters = .ok hint ↔ Makes name parameters hint := by
  refine ⟨makes_of_ofParts_eq_ok, ?_⟩
  intro h
  unfold ofParts
  dsimp only
  cases h with
  | forceNestedLoop hname =>
    rcases hname with hname | hname
    · rw [hname]
      rfl
    · rw [hname]
      rfl
  | @multiSearchSize parameter size hname hsize =>
    rw [hname]
    show (do return Hint.multiSearchSize (← count name parameter)) = _
    rw [hsize]
    rfl
  | @joinLimit parameter parameter' first second hname hfirst hsecond =>
    rw [hname]
    show (do
      let first ← count name parameter
      let second ← count name parameter'
      return Hint.joinLimit first second) = _
    rw [hfirst, hsecond]
    rfl
  | @hashBuildSide parameter side hname hside =>
    rw [hname]
    show (do return Hint.hashBuildSide (← Hint.side parameter)) = _
    rw [hside]
    rfl

theorem Makes.length_eq (h : Makes name parameters hint) : parameters.length = hint.arity := by
  cases h <;> rfl

/-- No name has a parenthesis in it. -/
theorem Makes.notMem_name (h : Makes name parameters hint) : ')' ∉ name.toList := by
  have hupper : ∀ known : String, ')' ∉ known.toList →
      String.ofList (Text.upper name.toList) = known → ')' ∉ name.toList := by
    intro known hknown hname hmem
    refine hknown ?_
    rw [← hname, String.toList_ofList]
    exact List.mem_map_of_mem (f := Char.toUpper) hmem
  cases h with
  | forceNestedLoop hname =>
    rcases hname with hname | hname
    · exact hupper _ (by decide) hname
    · exact hupper _ (by decide) hname
  | multiSearchSize hname => exact hupper _ (by decide) hname
  | joinLimit hname => exact hupper _ (by decide) hname
  | hashBuildSide hname => exact hupper _ (by decide) hname

theorem parse_eq_ok_iff : parse text = .ok hint ↔
    ∃ name parameters, parts? (stripComment text.toList) = some (name, parameters) ∧
      Makes (.ofList name) parameters hint := by
  unfold parse
  cases hparts : parts? (stripComment text.toList) with
  | none => simp
  | some part =>
    obtain ⟨name, parameters⟩ := part
    dsimp only
    rw [ofParts_eq_ok_iff]
    constructor
    · intro h
      exact ⟨name, parameters, rfl, h⟩
    · rintro ⟨name', parameters', heq, h⟩
      cases heq
      exact h

/-! ## Lists with blank entries -/

theorem length_filled (inside : List Char) :
    (filled inside).length = (Text.split ',' inside).countP fun entry => Text.trim entry ≠ [] := by
  rw [filled, ← List.countP_eq_length_filter, List.countP_map]
  rfl

/-- A list fits a hint that it has the parameters of when it has no entry too many. One entry is there always. -/
theorem fitsList_iff (h : (filled inside).length = hint.arity) :
    hint.FitsList inside ↔ (Text.split ',' inside).length = max 1 hint.arity := by
  have hpos : 0 < (Text.split ',' inside).length := List.length_pos_iff.2 (Text.split_ne_nil ',' inside)
  rw [length_filled] at h
  unfold FitsList
  by_cases hzero : hint.arity = 0
  · rw [if_pos hzero, hzero, Text.length_split]
    have hblank : ∀ entry ∈ Text.split ',' inside, Text.Blank entry := by
      intro entry hentry
      have hnone := List.countP_eq_zero.1 (h.trans hzero) entry hentry
      exact Text.trim_eq_nil_iff.1 (of_not_not (mt decide_eq_true hnone))
    constructor
    · intro hinside
      have hcomma : ',' ∉ inside := fun hmem => absurd (hinside ',' hmem) (by decide)
      rw [List.count_eq_zero_of_not_mem hcomma]
      rfl
    · intro hlength
      have hcomma : ',' ∉ inside := List.count_eq_zero.1 (by omega)
      rw [Text.split_of_notMem hcomma] at hblank
      exact hblank inside (List.mem_singleton_self inside)
  · rw [if_neg hzero]
    have hmax : max 1 hint.arity = hint.arity := by omega
    rw [hmax]
    refine ⟨And.left, fun hlength => ⟨hlength, ?_⟩⟩
    have hall := List.countP_eq_length.1 (h.trans hlength.symm)
    intro entry hentry hblank
    exact of_decide_eq_true (hall entry hentry) (Text.trim_of_blank hblank)

/-- A text with parentheses is read as a hint exactly when it has a list, only blanks follow the list, and the
entries that are not blank are the parameters that make the hint. There are as many of these as the hint takes;
the list itself is one of the hint exactly when it has no further entries. -/
theorem parse_list_iff
    (hparen : '(' ∈ stripComment text.toList ∨ ')' ∈ stripComment text.toList) :
    parse text = .ok hint ↔ ∃ before inside after, HasList (stripComment text.toList) before inside after ∧
      Text.Blank after ∧ Makes (.ofList (Text.trim before)) (filled inside) hint ∧
      (filled inside).length = hint.arity ∧
      (hint.FitsList inside ↔ (Text.split ',' inside).length = max 1 hint.arity) := by
  rw [parse_eq_ok_iff]
  constructor
  · rintro ⟨name, parameters, hparts, hmakes⟩
    have hopen : '(' ∈ stripComment text.toList := by
      by_contra hnone
      have hclosed : ')' ∈ stripComment text.toList := hparen.resolve_left hnone
      rw [parts?_of_notMem hnone] at hparts
      cases hparts
      have hname := hmakes.notMem_name
      rw [String.toList_ofList] at hname
      exact hname hclosed
    obtain ⟨before, inside, after, hlist⟩ := exists_hasList hopen hparts
    obtain ⟨hafter, hpart⟩ := (parts?_eq_some_iff hlist).1 hparts
    cases hpart
    have hlength := hmakes.length_eq
    exact ⟨before, inside, after, hlist, hafter, hmakes, hlength, fitsList_iff hlength⟩
  · rintro ⟨before, inside, after, hlist, hafter, hmakes, -, -⟩
    exact ⟨_, _, (parts?_eq_some_iff hlist).2 ⟨hafter, rfl⟩, hmakes⟩

/-- A blank entry between two counts is passed over. -/
theorem parse_list_iff_sample :
    let text := "join_limit ( 10 , , 500 )"
    ('(' ∈ stripComment text.toList ∨ ')' ∈ stripComment text.toList) ∧
      parse text = .ok (.joinLimit 10 500) := by
  intro text
  have hstrip : stripComment text.toList = text.toList :=
    stripComment_of_plain (by decide) (by decide) (by decide) (by decide)
  have hparen : '(' ∈ stripComment text.toList ∨ ')' ∈ stripComment text.toList := by
    rw [hstrip]
    exact .inl (by decide)
  have hlist : HasList (stripComment text.toList) "join_limit ".toList " 10 , , 500 ".toList [] := by
    rw [hstrip]
    exact ⟨by decide, by decide, by decide⟩
  have hmakes : Makes (.ofList (Text.trim "join_limit ".toList)) (filled " 10 , , 500 ".toList)
      (.joinLimit 10 500) := .joinLimit rfl rfl rfl
  have hlength := hmakes.length_eq
  exact ⟨hparen, (parse_list_iff hparen).2
    ⟨_, _, _, hlist, Text.blank_nil, hmakes, hlength, fitsList_iff hlength⟩⟩

/-- A list whose first entry is missing is read as if the others were the first and the second. -/
theorem parse_missing_entry :
    parse "JOIN_LIMIT(,5,7)" = .ok (.joinLimit 5 7) ∧
      HasList (stripComment "JOIN_LIMIT(,5,7)".toList) "JOIN_LIMIT".toList ",5,7".toList [] ∧
      ¬ (Hint.joinLimit 5 7).FitsList ",5,7".toList := by
  have hstrip : stripComment "JOIN_LIMIT(,5,7)".toList = "JOIN_LIMIT(,5,7)".toList :=
    stripComment_of_plain rfl (by decide) (by decide) (by decide)
  refine ⟨?_, ?_, ?_⟩
  · rw [parse, hstrip]
    rfl
  · rw [hstrip]
    exact ⟨rfl, by decide, by decide⟩
  · rintro ⟨hlength, -⟩
    exact absurd hlength (by decide)

end SearchJoin.Hint
