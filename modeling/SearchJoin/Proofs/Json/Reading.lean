import SearchJoin.Json.Parser
import SearchJoin.Proofs.Json.Scan

/-!
# Reading the text of a tree

A tree is read back from its text, whatever strings and numbers stand in it and however deep it is. The text without
blanks is one line: it is not empty, and no line break stands in it.

Main statements: `ofChars?_compact`, `ofChars?_pretty`, `newline_notMem_compact`.
-/

namespace SearchJoin.Json

namespace ParseState

variable {stack : List Frame} {awaited : Awaited} {token : Token} {rest : List Token}

theorem run?_cons {state next : ParseState} (hstep : state.step? token = some next) :
    state.run? (token :: rest) = next.run? rest := by
  rw [run?, hstep, Option.bind_some]

theorem run?_cons_bind {state : ParseState} {result : Option ParseState} (hstep : state.step? token = result) :
    state.run? (token :: rest) = result.bind (·.run? rest) := by
  rw [run?, hstep]

/-- Where an array may end a value is read all the same. -/
theorem step?_value (hawaited : awaited = .value ∨ awaited = .firstItem) (htoken : token ≠ .closeArr) :
    (ParseState.inside stack awaited).step? token = value? stack token := by
  rcases hawaited with rfl | rfl
  · rfl
  · cases token <;> first | rfl | exact absurd rfl htoken

theorem step?_name {fields : List (String × Json)} {name : String} (hawaited : awaited = .name ∨ awaited = .firstName) :
    (ParseState.inside (.obj fields :: stack) awaited).step? (.str name) =
      some (.inside (.field fields name :: stack) .colon) := by
  rcases hawaited with rfl | rfl <;> rfl

mutual

/-- The tokens of a tree deliver the tree. -/
theorem run?_tokens : (tree : Json) → (stack : List Frame) → (awaited : Awaited) →
    awaited = .value ∨ awaited = .firstItem → (rest : List Token) →
    (ParseState.inside stack awaited).run? (tree.tokens ++ rest) = (deliver? tree stack).bind (·.run? rest)
  | .null, _, _, h, _ => run?_cons_bind (step?_value h nofun)
  | .bool _, _, _, h, _ => run?_cons_bind (step?_value h nofun)
  | .num _, _, _, h, _ => run?_cons_bind (step?_value h nofun)
  | .str _, _, _, h, _ => run?_cons_bind (step?_value h nofun)
  | .arr items, stack, awaited, h, rest => by
    have hopen : (ParseState.inside stack awaited).step? .openArr = some (.inside (.arr [] :: stack) .firstItem) :=
      step?_value h nofun
    rw [tokens, List.append_assoc, List.cons_append, run?_cons hopen]
    cases items with
    | nil => rfl
    | cons item items => exact run?_items (item :: items) nofun [] stack .firstItem (.inr rfl) rest
  | .obj fields, stack, awaited, h, rest => by
    have hopen : (ParseState.inside stack awaited).step? .openObj = some (.inside (.obj [] :: stack) .firstName) :=
      step?_value h nofun
    rw [tokens, List.append_assoc, List.cons_append, run?_cons hopen]
    cases fields with
    | nil => rfl
    | cons field fields => exact run?_fields (field :: fields) nofun [] stack .firstName (.inr rfl) rest

/-- The tokens of items and a closing bracket deliver an array, behind the items that have been read. -/
theorem run?_items : (items : List Json) → items ≠ [] → (read : List Json) → (stack : List Frame) →
    (awaited : Awaited) → awaited = .value ∨ awaited = .firstItem → (rest : List Token) →
    (ParseState.inside (.arr read :: stack) awaited).run? (itemTokens items ++ .closeArr :: rest) =
      (deliver? (.arr (read.reverse ++ items)) stack).bind (·.run? rest)
  | [], hne, _, _, _, _, _ => absurd rfl hne
  | [item], _, read, stack, awaited, h, rest => by
    rw [itemTokens, run?_tokens item (.arr read :: stack) awaited h]
    rw [← List.reverse_cons]
    exact run?_cons_bind rfl
  | item :: item' :: items, _, read, stack, awaited, h, rest => by
    have hrest := run?_items (item' :: items) nofun (item :: read) stack .value (.inl rfl) rest
    rw [List.reverse_cons, List.append_assoc] at hrest
    have hcomma : (ParseState.inside (.arr (item :: read) :: stack) .after).step? .comma =
      some (.inside (.arr (item :: read) :: stack) .value) := rfl
    rw [itemTokens, List.append_assoc, run?_tokens item (.arr read :: stack) awaited h]
    · exact (run?_cons hcomma).trans hrest
    · nofun

/-- The tokens of fields and a closing brace deliver an object, behind the fields that have been read. -/
theorem run?_fields : (fields : List (String × Json)) → fields ≠ [] → (read : List (String × Json)) →
    (stack : List Frame) → (awaited : Awaited) → awaited = .name ∨ awaited = .firstName → (rest : List Token) →
    (ParseState.inside (.obj read :: stack) awaited).run? (fieldTokens fields ++ .closeObj :: rest) =
      (deliver? (.obj (read.reverse ++ fields)) stack).bind (·.run? rest)
  | [], hne, _, _, _, _, _ => absurd rfl hne
  | [(name, value)], _, read, stack, awaited, h, rest => by
    rw [fieldTokens, List.cons_append, run?_cons (step?_name h), List.cons_append, run?_cons rfl,
      run?_tokens value (.field read name :: stack) .value (.inl rfl), ← List.reverse_cons]
    exact run?_cons_bind rfl
  | (name, value) :: field :: fields, _, read, stack, awaited, h, rest => by
    have hrest := run?_fields (field :: fields) nofun ((name, value) :: read) stack .name (.inl rfl) rest
    rw [List.reverse_cons, List.append_assoc] at hrest
    have hcomma : (ParseState.inside (.obj ((name, value) :: read) :: stack) .after).step? .comma =
      some (.inside (.obj ((name, value) :: read) :: stack) .name) := rfl
    rw [fieldTokens, List.append_assoc, List.cons_append, run?_cons (step?_name h), List.cons_append, run?_cons rfl,
      run?_tokens value (.field read name :: stack) .value (.inl rfl)]
    · exact (run?_cons hcomma).trans hrest
    · nofun

end

end ParseState

/-- A text with the tokens of a tree is read as the tree. -/
theorem ofChars?_of_scan?_eq {tree : Json} {cs : List Char} (h : Token.scan? cs = some tree.tokens) :
    ofChars? cs = some tree := by
  have hrun : ParseState.start.run? tree.tokens = some (.complete tree) := by
    have hdeliver := ParseState.run?_tokens tree [] .value (.inl rfl) []
    rw [List.append_nil] at hdeliver
    exact hdeliver
  rw [ofChars?, h, Option.bind_some, hrun]

/-- A tree is read back from its text without blanks. -/
theorem ofChars?_compact (tree : Json) : ofChars? tree.compact = some tree :=
  ofChars?_of_scan?_eq (Token.scan?_compact tree)

/-- A tree is read back from its text with one item or field a line. -/
theorem ofChars?_pretty (tree : Json) : ofChars? tree.pretty.toList = some tree := by
  rw [pretty, String.toList_ofList]
  exact ofChars?_of_scan?_eq (Token.scan?_prettyAt tree 0)

/-- A tree that is not too deep is received as it was sent. -/
theorem receive?_compress {tree : Json} (h : tree.depth ≤ depthLimit) : receive? tree.compress = some tree := by
  rw [receive?, compress, String.toList_ofList, ofChars?_compact, Option.bind_some, if_pos h]

theorem compact_ne_nil (tree : Json) : tree.compact ≠ [] := by
  intro hnil
  have hread := ofChars?_compact tree
  rw [hnil] at hread
  cases hread

/-! ## Control characters -/

/-- There are no control characters in the text. -/
def Visible (cs : List Char) : Prop := ∀ c ∈ cs, 0x20 ≤ c.toNat

instance (cs : List Char) : Decidable (Visible cs) := List.decidableBAll (fun c : Char => 0x20 ≤ c.toNat) cs

theorem Visible.append {cs cs' : List Char} (h : Visible cs) (h' : Visible cs') : Visible (cs ++ cs') :=
  List.forall_mem_append.2 ⟨h, h'⟩

theorem Visible.cons {c : Char} {cs : List Char} (hc : 0x20 ≤ c.toNat) (h : Visible cs) : Visible (c :: cs) :=
  List.forall_mem_cons.2 ⟨hc, h⟩

theorem visible_nil : Visible [] := List.forall_mem_nil _

theorem visible_hexDigit {n : Nat} (h : n < 16) : 0x20 ≤ (hexDigit n).toNat := by
  revert n
  decide

theorem visible_escape (c : Char) : Visible (escape c) := by
  unfold escape
  split_ifs with _ _ _ _ _ _ _ hcontrol
  -- The escapes of one letter are fixed texts.
  iterate 7 decide
  · have hhigh : 0x20 ≤ (hexDigit (c.toNat / 16)).toNat := visible_hexDigit (by omega)
    have hlow : 0x20 ≤ (hexDigit (c.toNat % 16)).toNat := visible_hexDigit (by omega)
    have hmark : Visible ['\\', 'u', '0', '0'] := by decide
    exact hmark.append (.cons hhigh (.cons hlow visible_nil))
  · exact .cons (Nat.not_lt.1 hcontrol) visible_nil

theorem visible_quoted (s : String) : Visible (quoted s) := by
  have hbody : Visible (s.toList.flatMap escape) := by
    intro c hc
    obtain ⟨d, -, hd⟩ := List.mem_flatMap.1 hc
    exact visible_escape d c hd
  exact .append (.cons (by decide) hbody) (.cons (by decide) visible_nil)

theorem visible_text (n : Number) : Visible n.text := by
  intro c hc
  have hchar := Token.isNumberChar_of_mem_number n c hc
  simp only [Token.isNumberChar, Bool.or_eq_true, decide_eq_true_eq] at hchar
  rcases hchar with ((((hdigit | rfl) | rfl) | rfl) | rfl) | rfl
  · have hrange : 48 ≤ c.toNat ∧ c.toNat ≤ 57 := Char.isDigit_iff_toNat.1 hdigit
    omega
  all_goals decide

mutual

/-- Control characters are escaped. -/
theorem visible_compact : (tree : Json) → Visible tree.compact
  | .null => by decide
  | .bool true => by decide
  | .bool false => by decide
  | .num n => visible_text n
  | .str s => visible_quoted s
  | .arr items => by
    rw [compact]
    exact .append (.cons (by decide) (visible_compactItems items)) (.cons (by decide) visible_nil)
  | .obj fields => by
    rw [compact]
    exact .append (.cons (by decide) (visible_compactFields fields)) (.cons (by decide) visible_nil)

theorem visible_compactItems : (items : List Json) → Visible (compactItems items)
  | [] => visible_nil
  | [item] => visible_compact item
  | item :: item' :: items => by
    rw [compactItems]
    · exact (visible_compact item).append (.cons (by decide) (visible_compactItems (item' :: items)))
    · nofun

theorem visible_compactFields : (fields : List (String × Json)) → Visible (compactFields fields)
  | [] => visible_nil
  | [(name, value)] => by
    rw [compactFields]
    exact (visible_quoted name).append (.cons (by decide) (visible_compact value))
  | (name, value) :: field :: fields => by
    have hvalue := (visible_quoted name).append (.cons (c := ':') (by decide) (visible_compact value))
    rw [compactFields]
    · exact hvalue.append (.cons (by decide) (visible_compactFields (field :: fields)))
    · nofun

end

/-- The text is one line. -/
theorem newline_notMem_compact (tree : Json) : '\n' ∉ tree.compact :=
  fun hmem => absurd (visible_compact tree '\n' hmem) (by decide)

end SearchJoin.Json
