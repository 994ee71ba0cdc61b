import SearchJoin.Proofs.Predicate.Pattern

/-!
# The grid of a match

The grid has a row for each number of characters of the text and a column for each number of tokens of the
pattern: a cell says whether the tokens match the characters. A row is filled from the row before it, and
the last cell of the last row is the answer. The matcher gives the same answer.

Main statement: `Like.isMatch_iff_pieces`.
-/

namespace SearchJoin.Like

/-! ## Reading a pattern -/

/-- How a pattern is read, from its front. -/
inductive Reads : List Char → List Token → Prop where
  /-- Nothing is left. -/
  | nil : Reads [] []
  /-- A backslash makes the next character a literal. -/
  | escaped {c : Char} {cs : List Char} {tokens : List Token} (h : Reads cs tokens) :
    Reads ('\\' :: c :: cs) (.literal c :: tokens)
  /-- A backslash at the end is itself one. -/
  | lastSlash : Reads ['\\'] [.literal '\\']
  /-- `%` is any characters. -/
  | anyRun {cs : List Char} {tokens : List Token} (h : Reads cs tokens) :
    Reads ('%' :: cs) (.anyRun :: tokens)
  /-- `_` is any one character. -/
  | anyOne {cs : List Char} {tokens : List Token} (h : Reads cs tokens) :
    Reads ('_' :: cs) (.anyOne :: tokens)
  /-- Everything else is a literal. -/
  | literal {c : Char} {cs : List Char} {tokens : List Token} (hslash : c ≠ '\\') (hrun : c ≠ '%')
    (hone : c ≠ '_') (h : Reads cs tokens) : Reads (c :: cs) (.literal c :: tokens)

theorem reads_tokens (pattern : List Char) : Reads pattern (tokens pattern) := by
  fun_induction tokens pattern with
  | case1 => exact .nil
  | case2 c cs ih => exact .escaped ih
  | case3 => exact .lastSlash
  | case4 cs ih => exact .anyRun ih
  | case5 cs ih => exact .anyOne ih
  | case6 c cs hescape hlast hrun hone ih =>
    refine .literal (fun hslash => ?_) hrun hone ih
    exact hlast hslash (eq_nil_of_no_escape hescape hslash)

/-- A pattern is read in one way. -/
theorem reads_iff {pattern : List Char} {ts : List Token} : Reads pattern ts ↔ ts = tokens pattern := by
  constructor
  · intro h
    induction h with
    | nil => rfl
    | escaped _ ih => rw [ih, tokens]
    | lastSlash => rfl
    | anyRun _ ih => rw [ih, tokens]
    | anyOne _ ih => rw [ih, tokens]
    | literal hslash hrun hone _ ih => rw [ih, tokens_cons hslash hrun hone]
  · rintro rfl
    exact reads_tokens pattern

/-! ## Tokens and one more -/

variable {before after : List Token} {token : Token} {text : List Char} {c : Char}

/-- The last token takes a piece from the end. -/
theorem matches_append_singleton :
    Matches (before ++ [token]) text ↔
      ∃ front piece, Matches before front ∧ token.Takes piece ∧ front ++ piece = text := by
  induction before generalizing text with
  | nil =>
    rw [List.nil_append, matches_cons]
    constructor
    · rintro ⟨piece, rest, hpiece, hrest, rfl⟩
      rw [matches_nil.1 hrest, List.append_nil]
      exact ⟨[], piece, matches_nil.2 rfl, hpiece, rfl⟩
    · rintro ⟨front, piece, hfront, hpiece, rfl⟩
      rw [matches_nil.1 hfront]
      exact ⟨piece, [], hpiece, matches_nil.2 rfl, List.append_nil piece⟩
  | cons first before ih =>
    rw [List.cons_append, matches_cons]
    constructor
    · rintro ⟨taken, rest, htaken, hrest, rfl⟩
      obtain ⟨front, piece, hfront, hpiece, rfl⟩ := ih.1 hrest
      refine ⟨taken ++ front, piece, ?_, hpiece, List.append_assoc ..⟩
      exact matches_cons.2 ⟨taken, front, htaken, hfront, rfl⟩
    · rintro ⟨front, piece, hfront, hpiece, rfl⟩
      obtain ⟨taken, rest, htaken, hrest, rfl⟩ := matches_cons.1 hfront
      exact ⟨taken, rest ++ piece, htaken, ih.2 ⟨rest, piece, hrest, hpiece, rfl⟩,
        (List.append_assoc ..).symm⟩

/-- Without characters the last token has to be one that takes none. -/
theorem matches_append_singleton_nil :
    Matches (before ++ [token]) [] ↔ Matches before [] ∧ token = .anyRun := by
  rw [matches_append_singleton]
  constructor
  · rintro ⟨front, piece, hfront, hpiece, hnil⟩
    obtain ⟨rfl, rfl⟩ := List.append_eq_nil_iff.1 hnil
    refine ⟨hfront, ?_⟩
    cases token with
    | literal d => cases hpiece
    | anyOne => cases hpiece
    | anyRun => rfl
  · rintro ⟨hfront, rfl⟩
    exact ⟨[], [], hfront, trivial, rfl⟩

/-- A token that takes one character takes the last one. -/
theorem matches_append_one {P : Char → Prop}
    (htoken : ∀ piece, token.Takes piece ↔ ∃ d, P d ∧ piece = [d]) :
    Matches (before ++ [token]) (text ++ [c]) ↔ Matches before text ∧ P c := by
  rw [matches_append_singleton]
  constructor
  · rintro ⟨front, piece, hfront, hpiece, heq⟩
    obtain ⟨d, hd, rfl⟩ := (htoken piece).1 hpiece
    obtain ⟨rfl, hlast⟩ := List.append_inj' heq rfl
    cases hlast
    exact ⟨hfront, hd⟩
  · rintro ⟨hfront, hc⟩
    exact ⟨text, [c], hfront, (htoken [c]).2 ⟨c, hc, rfl⟩, rfl⟩

/-- A run takes nothing, or the last character and whatever it takes before it. -/
theorem matches_append_anyRun :
    Matches (before ++ [.anyRun]) (text ++ [c]) ↔
      Matches before (text ++ [c]) ∨ Matches (before ++ [.anyRun]) text := by
  rw [matches_append_singleton, matches_append_singleton]
  constructor
  · rintro ⟨front, piece, hfront, -, heq⟩
    rcases List.eq_nil_or_concat piece with rfl | ⟨shorter, last, rfl⟩
    · rw [List.append_nil] at heq
      exact .inl (heq ▸ hfront)
    · rw [List.concat_eq_append, ← List.append_assoc] at heq
      exact .inr ⟨front, shorter, hfront, trivial, (List.append_inj' heq rfl).1⟩
  · rintro (hfront | ⟨front, piece, hfront, -, rfl⟩)
    · exact ⟨text ++ [c], [], hfront, trivial, List.append_nil _⟩
    · exact ⟨front, piece ++ [c], hfront, trivial, (List.append_assoc ..).symm⟩

/-! ## The grid -/

/-- The cell of a token and a character: `above` is the cell of the token in the row before, `left` the
one of the tokens before it in this row, and `diagonal` the one of the tokens before it in the row
before. -/
def cell (c : Char) (diagonal above left : Bool) : Token → Bool
  | .anyRun => left || above
  | .anyOne => diagonal
  | .literal d => diagonal && d == c

/-- The row of the empty text, from a cell on. -/
def firstRow (left : Bool) : List Token → List Bool
  | [] => [left]
  | token :: tokens => left :: firstRow (left && token == .anyRun) tokens

/-- The row after one more character, from a cell on. A row has one cell more than there are tokens. -/
def nextRow (c : Char) (left : Bool) : List Token → List Bool → List Bool
  | token :: tokens, diagonal :: above :: cells =>
    left :: nextRow c (cell c diagonal above left token) tokens (above :: cells)
  | _, _ => [left]

/-- The last row. No token at all matches the empty text and no other, so every row but the first starts
with `false`. -/
def lastRow (tokens : List Token) (text : List Char) : List Bool :=
  text.foldl (fun row c => nextRow c false tokens row) (firstRow true tokens)

/-- The cells of a row tell whether the tokens `before`, and these with one, two and more of the tokens
behind them, match the text. -/
inductive Filled (text : List Char) : List Token → List Token → List Bool → Prop where
  /-- The last cell. -/
  | last {before : List Token} {left : Bool} (hleft : left = true ↔ Matches before text) :
    Filled text before [] [left]
  /-- A cell before others. -/
  | cons {before : List Token} {token : Token} {tokens : List Token} {left : Bool} {cells : List Bool}
    (hleft : left = true ↔ Matches before text) (hcells : Filled text (before ++ [token]) tokens cells) :
    Filled text before (token :: tokens) (left :: cells)

/-- One cell is filled from the three cells around it. -/
theorem cell_iff {diagonal above left : Bool} (hdiagonal : diagonal = true ↔ Matches before text)
    (habove : above = true ↔ Matches (before ++ [token]) text)
    (hleft : left = true ↔ Matches before (text ++ [c])) :
    cell c diagonal above left token = true ↔ Matches (before ++ [token]) (text ++ [c]) := by
  cases token with
  | anyRun => rw [cell, Bool.or_eq_true_iff, hleft, habove, matches_append_anyRun]
  | anyOne =>
    rw [cell, hdiagonal, matches_append_one (P := fun _ => True), and_true]
    intro piece
    simp [Token.Takes, List.length_eq_one_iff]
  | literal d =>
    rw [cell, Bool.and_eq_true_iff, hdiagonal, beq_iff_eq, matches_append_one (P := fun e => d = e)]
    intro piece
    simp [Token.Takes]

theorem filled_firstRow {left : Bool} (hleft : left = true ↔ Matches before []) :
    Filled [] before after (firstRow left after) := by
  induction after generalizing before left with
  | nil => exact .last hleft
  | cons token after ih =>
    refine .cons hleft (ih ?_)
    rw [matches_append_singleton_nil, Bool.and_eq_true_iff, hleft, beq_iff_eq]

/-- A row starts with the cell of the tokens before it. -/
theorem Filled.exists_eq_cons {row : List Bool} (h : Filled text before after row) :
    ∃ left cells, row = left :: cells ∧ (left = true ↔ Matches before text) := by
  cases h with
  | last hleft => exact ⟨_, _, rfl, hleft⟩
  | cons hleft hcells => exact ⟨_, _, rfl, hleft⟩

/-- One step: a row is filled from the one before it, cell by cell. -/
theorem Filled.nextRow {row : List Bool} (h : Filled text before after row) {left : Bool}
    (hleft : left = true ↔ Matches before (text ++ [c])) :
    Filled (text ++ [c]) before after (nextRow c left after row) := by
  induction h generalizing left with
  | last => exact .last hleft
  | cons hdiagonal hcells ih =>
    obtain ⟨above, cells, rfl, habove⟩ := hcells.exists_eq_cons
    exact .cons hleft (ih (cell_iff hdiagonal habove hleft))

theorem not_matches_nil_append : ¬ Matches [] (text ++ [c]) := by
  rw [matches_nil]
  exact List.concat_ne_nil c text

/-- A run: all rows are filled, whatever text the first one stands for. -/
theorem Filled.foldl_nextRow {row : List Bool} (h : Filled text [] after row) (more : List Char) :
    Filled (text ++ more) [] after (more.foldl (fun row c => Like.nextRow c false after row) row) := by
  induction more generalizing text row with
  | nil => rwa [List.append_nil]
  | cons c more ih =>
    rw [List.append_cons]
    exact ih (h.nextRow (iff_of_false Bool.false_ne_true not_matches_nil_append))

/-- The last cell tells whether all tokens match. -/
theorem Filled.getLast?_eq {row : List Bool} (h : Filled text before after row) :
    row.getLast? = some true ↔ Matches (before ++ after) text := by
  induction h with
  | last hleft => rw [List.getLast?_singleton, Option.some.injEq, hleft, List.append_nil]
  | cons hleft hcells ih =>
    obtain ⟨above, cells, rfl, -⟩ := hcells.exists_eq_cons
    rw [List.getLast?_cons_cons, ih, List.append_assoc, List.singleton_append]

theorem getLast?_lastRow (tokens : List Token) (text : List Char) :
    (lastRow tokens text).getLast? = some true ↔ Matches tokens text := by
  have hfirst : Filled [] [] tokens (firstRow true tokens) :=
    filled_firstRow (iff_of_true rfl (matches_nil.2 rfl))
  exact (hfirst.foldl_nextRow text).getLast?_eq

/-- A pattern is read in one way, and it matches a text exactly when the text can be cut into consecutive
pieces, one for each token, of which a literal takes that one character, `_` takes one character, and `%`
takes any. The last cell of the grid says the same. -/
theorem isMatch_iff_pieces (text pattern : List Char) :
    (∀ ts, Reads pattern ts ↔ ts = tokens pattern) ∧
      (isMatch text pattern = true ↔
        ∃ pieces, List.Forall₂ Token.Takes (tokens pattern) pieces ∧ pieces.flatten = text) ∧
      (isMatch text pattern = true ↔ (lastRow (tokens pattern) text).getLast? = some true) := by
  refine ⟨fun ts => reads_iff, isMatch_iff, ?_⟩
  rw [isMatch_iff, getLast?_lastRow]

end SearchJoin.Like
