import SearchJoin.Statement.Hint
import SearchJoin.Proofs.Except

/-!
# The texts of hints

A text is read as a hint when it has the name of the hint and as many parameters as the hint needs. The
counts among them are positive.

Main statement: `Hint.pos_of_parse_eq_ok`.
-/

namespace SearchJoin.Hint

variable {name text : String} {parameters : List (List Char)} {hint : Hint}

/-- The counts of a hint. -/
def counts : Hint → List UInt64
  | .forceNestedLoop => []
  | .multiSearchSize size => [size]
  | .joinLimit first second => [first, second]
  | .hashBuildSide _ => []

theorem ne_zero_of_count_eq_ok {parameter : List Char} {n : UInt64} (h : count name parameter = .ok n) :
    n ≠ 0 := by
  unfold count at h
  split at h
  · split at h
    · cases h
    · rename_i hne
      cases h
      exact hne
  · cases h

/-- What a hint is made of: its name, in any case, and the parameters that it needs. -/
inductive Makes (name : String) : List (List Char) → Hint → Prop where
  | forceNestedLoop (hname : String.ofList (Text.upper name.toList) = "FORCE_NESTED_LOOP" ∨
      String.ofList (Text.upper name.toList) = "USE_NESTED_LOOPS") : Makes name [] .forceNestedLoop
  | multiSearchSize {parameter : List Char} {size : UInt64}
    (hname : String.ofList (Text.upper name.toList) = "NL_MULTISEARCH_SIZE")
    (hsize : count name parameter = .ok size) : Makes name [parameter] (.multiSearchSize size)
  | joinLimit {parameter parameter' : List Char} {first second : UInt64}
    (hname : String.ofList (Text.upper name.toList) = "JOIN_LIMIT")
    (hfirst : count name parameter = .ok first) (hsecond : count name parameter' = .ok second) :
    Makes name [parameter, parameter'] (.joinLimit first second)
  | hashBuildSide {parameter : List Char} {side : Side}
    (hname : String.ofList (Text.upper name.toList) = "HASH_BUILD_SIDE")
    (hside : Hint.side parameter = .ok side) : Makes name [parameter] (.hashBuildSide side)

theorem makes_of_ofParts_eq_ok (h : ofParts name parameters = .ok hint) : Makes name parameters hint := by
  unfold ofParts at h
  dsimp only at h
  -- One case for each name.
  split at h
  · rename_i hname
    split at h
    · cases h
      exact .forceNestedLoop (.inl hname)
    · cases h
  · rename_i hname
    split at h
    · cases h
      exact .forceNestedLoop (.inr hname)
    · cases h
  · rename_i hname
    split at h
    · obtain ⟨size, hsize, h⟩ := bind_eq_ok.1 h
      cases h
      exact .multiSearchSize hname hsize
    · cases h
  · rename_i hname
    split at h
    · obtain ⟨first, hfirst, h⟩ := bind_eq_ok.1 h
      obtain ⟨second, hsecond, h⟩ := bind_eq_ok.1 h
      cases h
      exact .joinLimit hname hfirst hsecond
    · cases h
  · rename_i hname
    split at h
    · obtain ⟨side, hside, h⟩ := bind_eq_ok.1 h
      cases h
      exact .hashBuildSide hname hside
    · cases h
  · cases h

theorem Makes.pos (h : Makes name parameters hint) : ∀ n ∈ hint.counts, 0 < n := by
  intro n hn
  rw [UInt64.pos_iff_ne_zero]
  cases h with
  | forceNestedLoop => cases hn
  | multiSearchSize _ hsize =>
    rw [List.mem_singleton.1 hn]
    exact ne_zero_of_count_eq_ok hsize
  | joinLimit _ hfirst hsecond =>
    rcases List.mem_pair.1 hn with rfl | rfl
    · exact ne_zero_of_count_eq_ok hfirst
    · exact ne_zero_of_count_eq_ok hsecond
  | hashBuildSide => cases hn

/-- Every count of a hint that has been read is positive. -/
theorem pos_of_parse_eq_ok (h : parse text = .ok hint) : ∀ n ∈ hint.counts, 0 < n := by
  unfold parse at h
  split at h
  · exact (makes_of_ofParts_eq_ok h).pos
  · cases h

theorem stripComment_of_plain {cs : List Char} (htrim : Text.trim cs = cs)
    (hopened : ¬ ['/', '*', '!'] <+: cs) (hopened' : ¬ ['/', '*'] <+: cs)
    (hclosed : ¬ ['/', '*'] <+: cs.reverse) : stripComment cs = cs := by
  have hend : Text.dropCopiesEnd ['*', '/'] cs = cs := by
    have hreversed : Text.dropCopies ['*', '/'].reverse cs.reverse = cs.reverse :=
      Text.dropCopies_of_not_isPrefix hclosed
    rw [Text.dropCopiesEnd, hreversed, List.reverse_reverse]
  rw [stripComment, htrim, Text.dropCopies_of_not_isPrefix hopened,
    Text.dropCopies_of_not_isPrefix hopened', hend, htrim]

end SearchJoin.Hint
