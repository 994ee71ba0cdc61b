import Mathlib.Data.List.Forall2
import SearchJoin.Predicate.Like
import SearchJoin.Query.Compile

/-!
# What a pattern matches

A text matches the tokens of a pattern when it can be cut into consecutive pieces, one for each token.
The matcher finds out whether it can, and the wildcard pattern of a `LIKE` pattern has the same tokens.

Main statements: `Like.isMatch_iff`, `Like.wildcardTokens_likeToWildcard`.
-/

namespace SearchJoin.Like

/-- The pieces of a text that a token takes. -/
def Token.Takes : Token → List Char → Prop
  | .literal c, piece => piece = [c]
  | .anyOne, piece => piece.length = 1
  | .anyRun, _ => True

/-- The text can be cut into consecutive pieces, one for each token. -/
def Matches (tokens : List Token) (text : List Char) : Prop :=
  ∃ pieces, List.Forall₂ Token.Takes tokens pieces ∧ pieces.flatten = text

theorem matches_nil {text : List Char} : Matches [] text ↔ text = [] := by
  constructor
  · rintro ⟨pieces, h, rfl⟩
    cases h
    rfl
  · rintro rfl
    exact ⟨[], .nil, rfl⟩

/-- The first token takes a piece from the front. -/
theorem matches_cons {token : Token} {tokens : List Token} {text : List Char} :
    Matches (token :: tokens) text ↔
      ∃ piece rest, token.Takes piece ∧ Matches tokens rest ∧ piece ++ rest = text := by
  constructor
  · rintro ⟨pieces, h, rfl⟩
    cases h with
    | cons htoken htokens => exact ⟨_, _, htoken, ⟨_, htokens, rfl⟩, rfl⟩
  · rintro ⟨piece, rest, htoken, ⟨pieces, htokens, rfl⟩, rfl⟩
    exact ⟨piece :: pieces, .cons htoken htokens, rfl⟩

theorem mem_remainders {rest text : List Char} : rest ∈ remainders text ↔ rest <:+ text := by
  induction text with
  | nil => rw [remainders, List.mem_singleton, List.suffix_nil]
  | cons c text ih => rw [remainders, List.mem_cons, ih, List.suffix_cons_iff]

/-- Each remainder is the end of those before it. -/
abbrev Nested (rests : List (List Char)) : Prop :=
  rests.Pairwise fun earlier later => later <:+ earlier

theorem nested_remainders (text : List Char) : Nested (remainders text) := by
  induction text with
  | nil => exact List.pairwise_singleton _ _
  | cons c text ih =>
    refine List.pairwise_cons.2 ⟨fun rest hrest => ?_, ih⟩
    exact (mem_remainders.1 hrest).trans (List.suffix_cons c text)

theorem eq_cons_of_takeOne? {takes : Char → Bool} {rest left : List Char}
    (h : takeOne? takes rest = some left) : ∃ c, takes c = true ∧ rest = c :: left := by
  cases rest with
  | nil => cases h
  | cons c rest =>
    rw [takeOne?] at h
    by_cases hc : takes c = true
    · rw [if_pos hc] at h
      cases h
      exact ⟨c, hc, rfl⟩
    · rw [if_neg hc] at h
      cases h

/-- Taking one character keeps the remainders nested. -/
theorem nested_filterMap_takeOne? {takes : Char → Bool} {rests : List (List Char)}
    (h : Nested rests) : Nested (rests.filterMap (takeOne? takes)) := by
  refine List.pairwise_filterMap.2 (h.imp fun {earlier later} hsuffix left hleft left' hleft' => ?_)
  obtain ⟨c, -, rfl⟩ := eq_cons_of_takeOne? hleft
  obtain ⟨c', -, rfl⟩ := eq_cons_of_takeOne? hleft'
  rcases List.suffix_cons_iff.1 hsuffix with heq | hsuffix
  · cases heq
    exact List.suffix_rfl
  · exact (List.suffix_cons c' left').trans hsuffix

/-- What a token leaves is nested again. -/
theorem nested_advance {rests : List (List Char)} (h : Nested rests) (token : Token) :
    Nested (advance rests token) := by
  cases token with
  | literal c => exact nested_filterMap_takeOne? h
  | anyOne => exact nested_filterMap_takeOne? h
  | anyRun =>
    cases rests with
    | nil => exact .nil
    | cons longest rests => exact nested_remainders longest

/-- A token that takes one character is followed by the remainders without it. -/
theorem exists_mem_filterMap_takeOne? {takes : Char → Bool} {token : Token}
    (htoken : ∀ piece, token.Takes piece ↔ ∃ c, takes c = true ∧ piece = [c])
    {rests : List (List Char)} {tokens : List Token} :
    (∃ rest ∈ rests.filterMap (takeOne? takes), Matches tokens rest) ↔
      ∃ rest ∈ rests, Matches (token :: tokens) rest := by
  constructor
  · rintro ⟨left, hleft, hmatches⟩
    obtain ⟨rest, hrest, htake⟩ := List.mem_filterMap.1 hleft
    obtain ⟨c, hc, rfl⟩ := eq_cons_of_takeOne? htake
    exact ⟨_, hrest, matches_cons.2 ⟨[c], left, (htoken _).2 ⟨c, hc, rfl⟩, hmatches, rfl⟩⟩
  · rintro ⟨rest, hrest, hmatches⟩
    obtain ⟨piece, left, hpiece, hleft, rfl⟩ := matches_cons.1 hmatches
    obtain ⟨c, hc, rfl⟩ := (htoken _).1 hpiece
    exact ⟨left, List.mem_filterMap.2 ⟨_, hrest, if_pos hc⟩, hleft⟩

/-- One step of the matcher: the next token takes its piece. -/
theorem exists_mem_advance {rests : List (List Char)} (h : Nested rests) (token : Token)
    (tokens : List Token) :
    (∃ rest ∈ advance rests token, Matches tokens rest) ↔
      ∃ rest ∈ rests, Matches (token :: tokens) rest := by
  cases token with
  | literal c => exact exists_mem_filterMap_takeOne? fun piece => by simp [Token.Takes]
  | anyOne =>
    exact exists_mem_filterMap_takeOne? fun piece => by simp [Token.Takes, List.length_eq_one_iff]
  | anyRun =>
    cases rests with
    | nil => simp [advance]
    | cons longest rests =>
      simp only [advance, mem_remainders]
      constructor
      · rintro ⟨left, ⟨piece, rfl⟩, hmatches⟩
        exact ⟨_, List.mem_cons_self, matches_cons.2 ⟨piece, left, trivial, hmatches, rfl⟩⟩
      · rintro ⟨rest, hrest, hmatches⟩
        obtain ⟨piece, left, -, hleft, rfl⟩ := matches_cons.1 hmatches
        refine ⟨left, ?_, hleft⟩
        -- The longest remainder ends in every other one, so it is enough to start from it.
        rcases List.mem_cons.1 hrest with heq | hrest
        · rw [← heq]; exact List.suffix_append piece left
        · exact (List.suffix_append piece left).trans ((List.pairwise_cons.1 h).1 _ hrest)

/-- A run of the matcher: some remainder matches the tokens. -/
theorem mem_foldl_advance (tokens : List Token) {rests : List (List Char)} (h : Nested rests) :
    [] ∈ tokens.foldl advance rests ↔ ∃ rest ∈ rests, Matches tokens rest := by
  induction tokens generalizing rests with
  | nil => simp [matches_nil]
  | cons token tokens ih =>
    rw [List.foldl_cons, ih (nested_advance h token), exists_mem_advance h]

theorem contains_foldl_advance (tokens : List Token) (text : List Char) :
    (tokens.foldl advance [text]).contains [] = true ↔ Matches tokens text := by
  rw [List.contains_iff_mem, mem_foldl_advance tokens (List.pairwise_singleton _ _)]
  simp

instance (tokens : List Token) (text : List Char) : Decidable (Matches tokens text) :=
  decidable_of_iff _ (contains_foldl_advance tokens text)

/-- The matcher says whether the text can be cut into pieces for the tokens of the pattern. -/
theorem isMatch_iff {text pattern : List Char} :
    isMatch text pattern = true ↔ Matches (tokens pattern) text :=
  contains_foldl_advance (tokens pattern) text

/-- The tokens of a wildcard pattern of the engine: `*` is any characters and `?` is any one
character, a backslash makes the next character literal, and a backslash at the end is one. -/
def wildcardTokens : List Char → List Token
  | [] => []
  | '\\' :: c :: cs => .literal c :: wildcardTokens cs
  | ['\\'] => [.literal '\\']
  | '*' :: cs => .anyRun :: wildcardTokens cs
  | '?' :: cs => .anyOne :: wildcardTokens cs
  | c :: cs => .literal c :: wildcardTokens cs

/-- In the pattern a backslash stands only directly before `%` or `_`, or at the end. -/
def EscapesWildcards (pattern : List Char) : Prop :=
  ∀ before c after, pattern = before ++ '\\' :: c :: after → c = '%' ∨ c = '_'

theorem EscapesWildcards.tail {c : Char} {cs : List Char} (h : EscapesWildcards (c :: cs)) :
    EscapesWildcards cs := by
  intro before d after hcs
  exact h (c :: before) d after (by rw [hcs]; rfl)

/-- Neither kind of pattern reads the character in a way of its own. -/
def isPlain (c : Char) : Bool := c ∉ ['\\', '%', '_', '*', '?']

/-- The wildcard pattern starts with a character that is read alike with a backslash in front and
without: the pattern starts with a plain character, or with a backslash before `%` or `_`. -/
def startsPlain : List Char → Bool
  | [] => false
  | '\\' :: '%' :: _ => true
  | '\\' :: '_' :: _ => true
  | c :: _ => isPlain c

/-- A backslash that is not the last character stands before `%` or `_`, or before another backslash
and then a plain start. -/
def escapesPlainly : List Char → Bool
  | [] => true
  | '\\' :: c :: cs =>
    (c == '%' || c == '_' || (c == '\\' && startsPlain cs)) && escapesPlainly cs
  | _ :: cs => escapesPlainly cs

theorem tokens_cons {c : Char} (hslash : c ≠ '\\') (hrun : c ≠ '%') (hone : c ≠ '_')
    (cs : List Char) : tokens (c :: cs) = .literal c :: tokens cs := by
  rw [tokens] <;> simp_all

theorem wildcardTokens_cons {c : Char} (hslash : c ≠ '\\') (hstar : c ≠ '*') (hmark : c ≠ '?')
    (cs : List Char) : wildcardTokens (c :: cs) = .literal c :: wildcardTokens cs := by
  rw [wildcardTokens] <;> simp_all

theorem likeToWildcard_cons {c : Char} (h : isPlain c = true) (cs : List Char) :
    likeToWildcard (c :: cs) = c :: likeToWildcard cs := by
  rw [likeToWildcard] <;> simp_all [isPlain]

/-- A character that escapes none is one token, the same in both patterns. -/
theorem exists_token_cons {c : Char} {cs : List Char} (h : c = '\\' → cs = []) :
    ∃ token, tokens (c :: cs) = token :: tokens cs ∧
      wildcardTokens (likeToWildcard (c :: cs)) = token :: wildcardTokens (likeToWildcard cs) := by
  by_cases hslash : c = '\\'
  · subst hslash; rw [h rfl]; exact ⟨.literal '\\', rfl, rfl⟩
  by_cases hrun : c = '%'
  · subst hrun; exact ⟨.anyRun, by rw [tokens], by rw [likeToWildcard, wildcardTokens]⟩
  by_cases hone : c = '_'
  · subst hone; exact ⟨.anyOne, by rw [tokens], by rw [likeToWildcard, wildcardTokens]⟩
  refine ⟨.literal c, tokens_cons hslash hrun hone cs, ?_⟩
  by_cases hstar : c = '*'
  · subst hstar; rw [likeToWildcard, wildcardTokens]
  by_cases hmark : c = '?'
  · subst hmark; rw [likeToWildcard, wildcardTokens]
  rw [likeToWildcard_cons (by simp [isPlain, *]), wildcardTokens_cons hslash hstar hmark]

/-- An escaped `%` or `_` is one token, the same in both patterns. -/
theorem tokens_escaped_wildcard {c : Char} (h : c = '%' ∨ c = '_') (cs : List Char) :
    tokens ('\\' :: c :: cs) = .literal c :: tokens cs ∧
      wildcardTokens (likeToWildcard ('\\' :: c :: cs)) =
        .literal c :: wildcardTokens (likeToWildcard cs) := by
  rcases h with rfl | rfl
  · exact ⟨by rw [tokens], by rw [likeToWildcard, wildcardTokens_cons] <;> simp⟩
  · exact ⟨by rw [tokens], by rw [likeToWildcard, wildcardTokens_cons] <;> simp⟩

theorem likeToWildcard_escaped_other {c : Char} (hrun : c ≠ '%') (hone : c ≠ '_') (cs : List Char) :
    likeToWildcard ('\\' :: c :: cs) = '\\' :: '\\' :: c :: likeToWildcard cs := by
  rw [likeToWildcard] <;> simp_all

/-- Before any other character the backslash itself becomes a token of the wildcard pattern, and the
character is read together with what follows. -/
theorem wildcardTokens_escaped_other {c : Char} (hrun : c ≠ '%') (hone : c ≠ '_') (cs : List Char) :
    wildcardTokens (likeToWildcard ('\\' :: c :: cs)) =
      .literal '\\' :: wildcardTokens (c :: likeToWildcard cs) := by
  rw [likeToWildcard_escaped_other hrun hone, wildcardTokens]

/-- A backslash before a plain start changes nothing. -/
theorem wildcardTokens_slash_of_startsPlain {cs : List Char} (h : startsPlain cs = true) :
    wildcardTokens ('\\' :: likeToWildcard cs) = wildcardTokens (likeToWildcard cs) := by
  fun_cases startsPlain cs with
  | case1 => cases h
  | case2 cs => simp [likeToWildcard, wildcardTokens]
  | case3 cs => simp [likeToWildcard, wildcardTokens]
  | case4 c cs hrun hone =>
    have hplain : isPlain c = true := by rwa [startsPlain] at h <;> assumption
    rw [likeToWildcard_cons hplain, wildcardTokens, wildcardTokens_cons] <;> simp_all [isPlain]

theorem eq_nil_of_no_escape {c : Char} {cs : List Char}
    (h : ∀ d ds, c = '\\' → cs = d :: ds → False) : c = '\\' → cs = [] := by
  intro hslash
  cases cs with
  | nil => rfl
  | cons d ds => exact (h d ds hslash rfl).elim

/-- The wildcard pattern of a `LIKE` pattern has its tokens, when every escape is plain. -/
theorem wildcardTokens_of_escapesPlainly {pattern : List Char} (h : escapesPlainly pattern = true) :
    wildcardTokens (likeToWildcard pattern) = tokens pattern := by
  fun_induction escapesPlainly pattern with
  | case1 => rfl
  | case2 c cs ih =>
    obtain ⟨hc, hcs⟩ := Bool.and_eq_true_iff.1 h
    by_cases hwild : c = '%' ∨ c = '_'
    · obtain ⟨hlike, hwildcard⟩ := tokens_escaped_wildcard hwild cs
      rw [hlike, hwildcard, ih hcs]
    · obtain ⟨hrun, hone⟩ := not_or.1 hwild
      obtain ⟨rfl, hstart⟩ : c = '\\' ∧ startsPlain cs = true := by simpa [hrun, hone] using hc
      rw [wildcardTokens_escaped_other hrun hone, wildcardTokens_slash_of_startsPlain hstart, tokens,
        ih hcs]
  | case3 c cs hescape ih =>
    obtain ⟨token, hlike, hwildcard⟩ := exists_token_cons (eq_nil_of_no_escape hescape)
    rw [hlike, hwildcard, ih h]

theorem escapesPlainly_of_escapesWildcards {pattern : List Char} (h : EscapesWildcards pattern) :
    escapesPlainly pattern = true := by
  fun_induction escapesPlainly pattern with
  | case1 => rfl
  | case2 c cs ih => rcases h [] c cs rfl with rfl | rfl <;> simp [ih h.tail.tail]
  | case3 c cs hescape ih => exact ih h.tail

/-- The wildcard pattern of a `LIKE` pattern has its tokens, when nothing but wildcards is escaped. -/
theorem wildcardTokens_likeToWildcard {pattern : List Char} (h : EscapesWildcards pattern) :
    wildcardTokens (likeToWildcard pattern) = tokens pattern :=
  wildcardTokens_of_escapesPlainly (escapesPlainly_of_escapesWildcards h)

end SearchJoin.Like
