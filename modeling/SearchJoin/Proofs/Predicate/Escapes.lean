import Mathlib.Data.List.Perm.Lattice
import SearchJoin.Proofs.Predicate.Pattern

/-!
# Patterns and their wildcard patterns

A `LIKE` pattern and its wildcard pattern match the same texts exactly when every escape is plain. Any
other escape leaves the wildcard pattern with more literal characters, or with a backslash in the place
of another one, and the literal characters of a pattern can be told from the texts that it matches.

Main statement: `Like.matches_likeToWildcard_iff`.
-/

namespace SearchJoin.Like

/-- The characters that a text has to have for the tokens. -/
def literals : List Token → List Char
  | [] => []
  | .literal c :: tokens => c :: literals tokens
  | .anyOne :: tokens => literals tokens
  | .anyRun :: tokens => literals tokens

theorem count_literals_le {tokens : List Token} {text : List Char} (h : Matches tokens text)
    (c : Char) : (literals tokens).count c ≤ text.count c := by
  induction tokens generalizing text with
  | nil => exact Nat.zero_le _
  | cons token tokens ih =>
    obtain ⟨piece, rest, hpiece, hrest, rfl⟩ := matches_cons.1 h
    have hle := ih hrest
    rw [List.count_append]
    cases token with
    | literal d =>
      cases hpiece
      rw [literals, List.count_cons, List.count_singleton]
      omega
    | anyOne => exact Nat.le_add_left_of_le hle
    | anyRun => exact Nat.le_add_left_of_le hle

/-- Some matching text has a character no more often than it has to. -/
theorem exists_matches_count_eq (tokens : List Token) (c : Char) :
    ∃ text, Matches tokens text ∧ text.count c = (literals tokens).count c := by
  induction tokens with
  | nil => exact ⟨[], matches_nil.2 rfl, rfl⟩
  | cons token tokens ih =>
    obtain ⟨rest, hrest, hcount⟩ := ih
    cases token with
    | literal d =>
      refine ⟨d :: rest, matches_cons.2 ⟨[d], rest, rfl, hrest, rfl⟩, ?_⟩
      rw [literals, List.count_cons, List.count_cons, hcount]
    | anyOne =>
      obtain ⟨d, hd⟩ : ∃ d, d ≠ c := ⟨if c = 'a' then 'b' else 'a', by split <;> simp_all [eq_comm]⟩
      refine ⟨d :: rest, matches_cons.2 ⟨[d], rest, rfl, hrest, rfl⟩, ?_⟩
      rw [List.count_cons_of_ne hd, literals, hcount]
    | anyRun => exact ⟨rest, matches_cons.2 ⟨[], rest, trivial, hrest, rfl⟩, hcount⟩

/-- Tokens that match the same texts have the same literal characters. -/
theorem perm_literals_of_matches_iff {tokens others : List Token}
    (h : ∀ text, Matches tokens text ↔ Matches others text) :
    (literals tokens).Perm (literals others) := by
  refine List.perm_iff_count.2 fun c => Nat.le_antisymm ?_ ?_
  · obtain ⟨text, hmatches, hcount⟩ := exists_matches_count_eq others c
    exact hcount ▸ count_literals_le ((h text).2 hmatches) c
  · obtain ⟨text, hmatches, hcount⟩ := exists_matches_count_eq tokens c
    exact hcount ▸ count_literals_le ((h text).1 hmatches) c

/-- How many literal characters the tokens have. A backslash counts twice, so that it weighs more than
the character that it stands in the place of. -/
def weight (tokens : List Token) : Nat :=
  (literals tokens).length + (literals tokens).count '\\'

theorem weight_eq_of_matches_iff {tokens others : List Token}
    (h : ∀ text, Matches tokens text ↔ Matches others text) : weight tokens = weight others := by
  have hperm := perm_literals_of_matches_iff h
  rw [weight, weight, hperm.length_eq, hperm.count_eq]

@[simp] theorem weight_anyOne (tokens : List Token) : weight (.anyOne :: tokens) = weight tokens :=
  rfl

@[simp] theorem weight_anyRun (tokens : List Token) : weight (.anyRun :: tokens) = weight tokens :=
  rfl

@[simp] theorem weight_slash (tokens : List Token) :
    weight (.literal '\\' :: tokens) = weight tokens + 2 := by
  rw [weight, weight, literals, List.length_cons, List.count_cons_self]
  omega

theorem weight_literal {c : Char} (hc : c ≠ '\\') (tokens : List Token) :
    weight (.literal c :: tokens) = weight tokens + 1 := by
  rw [weight, weight, literals, List.length_cons, List.count_cons_of_ne hc]
  omega

theorem weight_cons_lt_cons (token : Token) {tokens others : List Token}
    (h : weight tokens < weight others) : weight (token :: tokens) < weight (token :: others) := by
  cases token with
  | literal c =>
    by_cases hc : c = '\\'
    · subst hc; rw [weight_slash, weight_slash]; omega
    · rw [weight_literal hc, weight_literal hc]; omega
  | anyOne => exact h
  | anyRun => exact h

theorem weight_le_cons_of_ne {c : Char} (hslash : c ≠ '\\') (cs : List Char) :
    weight (wildcardTokens cs) ≤ weight (wildcardTokens (c :: cs)) := by
  by_cases hstar : c = '*'
  · subst hstar; exact Nat.le_of_eq (by rw [wildcardTokens, weight_anyRun])
  by_cases hmark : c = '?'
  · subst hmark; exact Nat.le_of_eq (by rw [wildcardTokens, weight_anyOne])
  rw [wildcardTokens_cons hslash hstar hmark, weight_literal hslash]
  exact Nat.le_succ _

/-- A character in front takes nothing off the weight, also where it changes how the next one is read. -/
theorem weight_le_cons (c : Char) (cs : List Char) :
    weight (wildcardTokens cs) ≤ weight (wildcardTokens (c :: cs)) := by
  by_cases hslash : c = '\\'
  · subst hslash
    fun_induction wildcardTokens cs with
    | case1 => exact Nat.zero_le _
    | case2 d ds ih =>
      rw [wildcardTokens, weight_slash]
      by_cases hd : d = '\\'
      · subst hd; rw [weight_slash]; omega
      · have hle := weight_le_cons_of_ne hd ds
        rw [weight_literal hd]; omega
    | case3 => exact Nat.le_refl _
    | case4 ds ih => rw [wildcardTokens, weight_literal, weight_anyRun] <;> simp
    | case5 ds ih => rw [wildcardTokens, weight_literal, weight_anyOne] <;> simp
    | case6 d ds => exact Nat.le_of_eq (by rw [wildcardTokens])
  · exact weight_le_cons_of_ne hslash cs

/-- A backslash before a start that is not plain adds to the weight. -/
theorem weight_lt_slash {cs : List Char} (hplain : escapesPlainly cs = true)
    (hstart : startsPlain cs = false) :
    weight (wildcardTokens (likeToWildcard cs)) <
      weight (wildcardTokens ('\\' :: likeToWildcard cs)) := by
  fun_cases startsPlain cs with
  | case1 => decide
  | case2 cs => simp [startsPlain] at hstart
  | case3 cs => simp [startsPlain] at hstart
  | case4 c cs hrun hone =>
    have hplain : isPlain c = false := by rwa [startsPlain] at hstart <;> assumption
    have hspecial : c ∈ ['\\', '%', '_', '*', '?'] := not_not.1 (of_decide_eq_false hplain)
    simp only [List.mem_cons, List.not_mem_nil, or_false] at hspecial
    rcases hspecial with rfl | rfl | rfl | rfl | rfl
    · cases cs with
      | nil => decide
      | cons d ds =>
        have hdrun : d ≠ '%' := fun hd => hrun ds rfl (by rw [hd])
        have hdone : d ≠ '_' := fun hd => hone ds rfl (by rw [hd])
        obtain ⟨⟨rfl, hds⟩, -⟩ : (d = '\\' ∧ startsPlain ds = true) ∧ escapesPlainly ds = true := by
          simpa [escapesPlainly, hdrun, hdone] using hplain
        rw [wildcardTokens_escaped_other hdrun hdone, wildcardTokens_slash_of_startsPlain hds,
          likeToWildcard_escaped_other hdrun hdone, wildcardTokens, wildcardTokens]
        simp
    · rw [likeToWildcard, wildcardTokens, wildcardTokens, weight_literal] <;> simp
    · rw [likeToWildcard, wildcardTokens, wildcardTokens, weight_literal] <;> simp
    · rw [likeToWildcard, wildcardTokens, wildcardTokens, wildcardTokens, weight_literal] <;> simp
    · rw [likeToWildcard, wildcardTokens, wildcardTokens, wildcardTokens, weight_literal] <;> simp

/-- An escape that is not plain makes the wildcard pattern heavier. -/
theorem weight_lt_of_not_escapesPlainly {pattern : List Char}
    (h : escapesPlainly pattern = false) :
    weight (tokens pattern) < weight (wildcardTokens (likeToWildcard pattern)) := by
  fun_induction escapesPlainly pattern with
  | case1 => cases h
  | case2 c cs ih =>
    by_cases hwild : c = '%' ∨ c = '_'
    · obtain ⟨hlike, hwildcard⟩ := tokens_escaped_wildcard hwild cs
      have hcs : escapesPlainly cs = false := by rcases hwild with rfl | rfl <;> simpa using h
      rw [hlike, hwildcard]
      exact weight_cons_lt_cons (.literal c) (ih hcs)
    · obtain ⟨hrun, hone⟩ := not_or.1 hwild
      have hcons := weight_le_cons c (likeToWildcard cs)
      rw [wildcardTokens_escaped_other hrun hone, weight_slash, tokens]
      cases hplain : escapesPlainly cs with
      | false =>
        have hlt := ih hplain
        by_cases hslash : c = '\\'
        · subst hslash; rw [weight_slash]; omega
        · rw [weight_literal hslash]; omega
      | true =>
        rw [← wildcardTokens_of_escapesPlainly hplain]
        by_cases hslash : c = '\\'
        · subst hslash
          have hlt := weight_lt_slash hplain (by simpa [hplain] using h)
          rw [weight_slash]; omega
        · rw [weight_literal hslash]; omega
  | case3 c cs hescape ih =>
    obtain ⟨token, hlike, hwildcard⟩ := exists_token_cons (eq_nil_of_no_escape hescape)
    rw [hlike, hwildcard]
    exact weight_cons_lt_cons token (ih h)

/-- A pattern and its wildcard pattern match the same texts exactly when every escape is plain. -/
theorem matches_likeToWildcard_iff (pattern : List Char) :
    (∀ text, isMatch text pattern = true ↔
        Matches (wildcardTokens (likeToWildcard pattern)) text) ↔
      escapesPlainly pattern = true := by
  simp only [isMatch_iff]
  constructor
  · intro hagree
    by_contra hplain
    have hlt := weight_lt_of_not_escapesPlainly (Bool.eq_false_iff.2 hplain)
    exact absurd (weight_eq_of_matches_iff hagree) (Nat.ne_of_lt hlt)
  · intro hplain text
    rw [wildcardTokens_of_escapesPlainly hplain]

/-- An escaped star matches a star, but the wildcard pattern asks for a backslash. -/
theorem isMatch_escaped_star :
    isMatch ['*'] ['\\', '*'] = true ∧ likeToWildcard ['\\', '*'] = ['\\', '\\', '*'] ∧
      ¬ Matches (wildcardTokens (likeToWildcard ['\\', '*'])) ['*'] := by
  decide

end SearchJoin.Like
