import SearchJoin.Json.Printer
import SearchJoin.Json.Token
import SearchJoin.Proofs.Number.Reading

/-!
# The tokens of the text of a tree

The text of a tree, without blanks or with one item or field a line, is cut into the tokens of the tree. Strings
come back from their escapes, and a word or a number ends where the text of the tree around it goes on.

Main statements: `Token.scan?_compact`, `Token.scan?_prettyAt`.
-/

namespace SearchJoin.Json

mutual

/-- The tokens of a tree. -/
def tokens : Json → List Token
  | .arr items => .openArr :: itemTokens items ++ [.closeArr]
  | .obj fields => .openObj :: fieldTokens fields ++ [.closeObj]
  | .null => [.word .null]
  | .bool b => [.word (.bool b)]
  | .num n => [.num n]
  | .str s => [.str s]

/-- The tokens of items, with commas between them. -/
def itemTokens : List Json → List Token
  | [] => []
  | [item] => tokens item
  | item :: items => tokens item ++ .comma :: itemTokens items

/-- The tokens of fields, with commas between them. -/
def fieldTokens : List (String × Json) → List Token
  | [] => []
  | [(name, value)] => .str name :: .colon :: tokens value
  | (name, value) :: fields => .str name :: .colon :: tokens value ++ .comma :: fieldTokens fields

end

namespace Token

variable {rest cs : List Char} {read : List Char} {found : List Token}

/-- A word or a number ends in front of the text. -/
def Ends (rest : List Char) : Prop := ∀ c ∈ rest.head?, c.isLower = false ∧ isNumberChar c = false

/-- In front of a text that is scanned, the characters are scanned as the tokens. -/
def Scans (cs : List Char) (tokens : List Token) : Prop :=
  ∀ rest found, Ends rest → scan? rest = some found → scan? (cs ++ rest) = some (tokens ++ found)

theorem ends_nil : Ends [] := nofun

theorem ends_cons {c : Char} (h : c.isLower = false ∧ isNumberChar c = false) : Ends (c :: rest) := by
  intro d hd
  cases hd
  exact h

/-- Nothing has to follow the characters. -/
theorem Scans.scan?_eq_some {tokens : List Token} (h : Scans cs tokens) : scan? cs = some tokens := by
  have hscan := h [] [] ends_nil rfl
  rw [List.append_nil, List.append_nil] at hscan
  exact hscan

/-! ## Steps -/

theorem scanFrom?_cons {state next : Reading} {c : Char} {tokens : List Token}
    (hstep : step? state c = some (next, tokens)) :
    scanFrom? state (c :: cs) = (scanFrom? next cs).map (tokens ++ ·) := by
  rw [scanFrom?, hstep, Option.bind_some]

theorem scanFrom?_skip {state next : Reading} {c : Char} (hstep : step? state c = some (next, [])) :
    scanFrom? state (c :: cs) = scanFrom? next cs := by
  rw [scanFrom?_cons hstep]
  exact congrFun Option.map_id (scanFrom? next cs)

/-- A mark is a token of its own. -/
theorem scan?_mark {c : Char} {token : Token} (hstart : start? c = some (.blank, [token]))
    (hrest : scan? rest = some found) : scan? (c :: rest) = some (token :: found) := by
  have hrest : scanFrom? .blank rest = some found := hrest
  rw [scan?, scanFrom?_cons (show step? .blank c = some (.blank, [token]) from hstart), hrest]
  rfl

/-- What has been read of a word or a number is a token when the text goes on with something else. -/
theorem scanFrom?_of_ends {state : Reading} {token : Token} (hfinish : finish? state = some [token])
    (hstep : ∀ c, c.isLower = false → isNumberChar c = false →
      step? state c = (start? c).map fun (next, tokens) => (next, token :: tokens))
    (hends : Ends rest) (hrest : scan? rest = some found) :
    scanFrom? state rest = some (token :: found) := by
  cases rest with
  | nil =>
    cases hrest
    exact hfinish
  | cons c cs =>
    obtain ⟨hlower, hnumber⟩ := hends c rfl
    unfold scan? scanFrom? at hrest
    unfold scanFrom?
    rw [hstep c hlower hnumber]
    obtain ⟨⟨next, tokens⟩, hstart, hrest⟩ := Option.bind_eq_some_iff.1 hrest
    obtain ⟨others, hothers, rfl⟩ := Option.map_eq_some_iff.1 hrest
    have hstart : start? c = some (next, tokens) := hstart
    rw [hstart, Option.map_some, Option.bind_some]
    dsimp only
    rw [hothers]
    rfl

/-! ## Strings -/

theorem hexValue?_digitChar {n : Nat} (h : n < 16) : Text.hexValue? (Nat.digitChar n) = some n := by
  revert n
  decide

/-- Of the digits of a code unit one more is read. -/
theorem step?_hex {unit missing digit : Nat} {c : Char} (hc : Text.hexValue? c = some digit)
    (hmissing : 1 < missing) :
    step? (.hex read none unit missing) c = some (.hex read none (16 * unit + digit) (missing - 1), []) := by
  have hmore : ¬ missing ≤ 1 := by omega
  rw [step?, hc, Option.bind_some, if_neg hmore]

/-- The last digit of the code unit of a control character has been read. -/
theorem step?_lastHex {unit digit : Nat} {c d : Char} (hc : Text.hexValue? c = some digit)
    (hunit : 16 * unit + digit = d.toNat) (hcontrol : d.toNat < 0x20) :
    step? (.hex read none unit 1) c = some (.string (d :: read), []) := by
  have hnotHigh : ¬ (0xD800 ≤ d.toNat ∧ d.toNat ≤ 0xDBFF) := by omega
  have hnotLow : ¬ (0xDC00 ≤ d.toNat ∧ d.toNat ≤ 0xDFFF) := by omega
  rw [step?, hc, Option.bind_some, if_pos (Nat.le_refl 1), hunit, codeUnit?, if_neg hnotHigh, if_neg hnotLow,
    Char.ofNat_toNat]
  rfl

/-- A control character comes back from its code unit. -/
theorem scanFrom?_codeUnit {c : Char} (read : List Char) (hcontrol : c.toNat < 0x20) (rest : List Char) :
    scanFrom? (.string read) (['\\', 'u', '0', '0', hexDigit (c.toNat / 16), hexDigit (c.toNat % 16)] ++ rest) =
      scanFrom? (.string (c :: read)) rest := by
  have hhigh : Text.hexValue? (hexDigit (c.toNat / 16)) = some (c.toNat / 16) := hexValue?_digitChar (by omega)
  have hlow : Text.hexValue? (hexDigit (c.toNat % 16)) = some (c.toNat % 16) := hexValue?_digitChar (by omega)
  have hzero : Text.hexValue? '0' = some 0 := rfl
  calc scanFrom? (.string read) (['\\', 'u', '0', '0', hexDigit (c.toNat / 16), hexDigit (c.toNat % 16)] ++ rest)
      = scanFrom? (.escape read) ('u' :: '0' :: '0' :: hexDigit (c.toNat / 16) :: hexDigit (c.toNat % 16) :: rest) :=
        scanFrom?_skip rfl
    _ = scanFrom? (.hex read none 0 4) ('0' :: '0' :: hexDigit (c.toNat / 16) :: hexDigit (c.toNat % 16) :: rest) :=
        scanFrom?_skip rfl
    _ = scanFrom? (.hex read none 0 3) ('0' :: hexDigit (c.toNat / 16) :: hexDigit (c.toNat % 16) :: rest) :=
        scanFrom?_skip (step?_hex hzero (by decide))
    _ = scanFrom? (.hex read none 0 2) (hexDigit (c.toNat / 16) :: hexDigit (c.toNat % 16) :: rest) :=
        scanFrom?_skip (step?_hex hzero (by decide))
    _ = scanFrom? (.hex read none (16 * 0 + c.toNat / 16) 1) (hexDigit (c.toNat % 16) :: rest) :=
        scanFrom?_skip (step?_hex hhigh (by decide))
    _ = scanFrom? (.string (c :: read)) rest := scanFrom?_skip (step?_lastHex hlow (by omega) hcontrol)

/-- A character comes back from its escape. -/
theorem scanFrom?_escape (read : List Char) (c : Char) (rest : List Char) :
    scanFrom? (.string read) (escape c ++ rest) = scanFrom? (.string (c :: read)) rest := by
  have hshort : ∀ mark : Char, mark ≠ 'u' → escaped? mark = some c →
      scanFrom? (.string read) ('\\' :: mark :: rest) = scanFrom? (.string (c :: read)) rest := by
    intro mark hmark hescaped
    have hstep : step? (.escape read) mark = some (.string (c :: read), []) := by
      rw [step?, if_neg hmark, hescaped]
      rfl
    rw [scanFrom?_skip (show step? (.string read) '\\' = some (.escape read, []) from rfl), scanFrom?_skip hstep]
  unfold escape
  split_ifs with hquote hbackslash hb hf hn hr ht hcontrol
  · exact hshort '"' (by decide) (by rw [hquote]; rfl)
  · exact hshort '\\' (by decide) (by rw [hbackslash]; rfl)
  · exact hshort 'b' (by decide) (by rw [hb]; rfl)
  · exact hshort 'f' (by decide) (by rw [hf]; rfl)
  · exact hshort 'n' (by decide) (by rw [hn]; rfl)
  · exact hshort 'r' (by decide) (by rw [hr]; rfl)
  · exact hshort 't' (by decide) (by rw [ht]; rfl)
  · exact scanFrom?_codeUnit read hcontrol rest
  · have hstep : step? (.string read) c = some (.string (c :: read), []) := by
      rw [step?, if_neg hquote, if_neg hbackslash, if_neg hcontrol]
    exact scanFrom?_skip hstep

/-- A string comes back from its text. -/
theorem scanFrom?_string (read cs rest : List Char) :
    scanFrom? (.string read) (cs.flatMap escape ++ '"' :: rest) =
      (scan? rest).map (.str (String.ofList (read.reverse ++ cs)) :: ·) := by
  induction cs generalizing read with
  | nil =>
    have hclose : step? (.string read) '"' = some (.blank, [.str (String.ofList read.reverse)]) := rfl
    rw [List.flatMap_nil, List.nil_append, List.append_nil]
    exact scanFrom?_cons hclose
  | cons c cs ih =>
    rw [List.flatMap_cons, List.append_assoc, scanFrom?_escape, ih, List.reverse_cons, List.append_assoc]
    rfl

theorem scan?_quoted (s : String) (hrest : scan? rest = some found) :
    scan? (quoted s ++ rest) = some (.str s :: found) := by
  have hopen : scan? (quoted s ++ rest) = scanFrom? (.string []) (s.toList.flatMap escape ++ '"' :: rest) := by
    show scanFrom? .blank ('"' :: (s.toList.flatMap escape ++ ['"'] ++ rest)) = _
    rw [scanFrom?_skip (show step? .blank '"' = some (.string [], []) from rfl), List.append_assoc]
    rfl
  rw [hopen, scanFrom?_string, hrest, List.reverse_nil, List.nil_append, String.ofList_toList]
  rfl

/-! ## Words and numbers -/

theorem scanFrom?_run {state : List Char → Reading}
    (hmore : ∀ read, ∀ c ∈ cs, step? (state read) c = some (state (c :: read), [])) (read rest : List Char) :
    scanFrom? (state read) (cs ++ rest) = scanFrom? (state (cs.reverse ++ read)) rest := by
  induction cs generalizing read with
  | nil => rfl
  | cons c cs ih =>
    have hc := hmore read c List.mem_cons_self
    rw [List.cons_append, scanFrom?_skip hc, ih fun read d hd => hmore read d (List.mem_cons_of_mem _ hd),
      List.reverse_cons, List.append_assoc]
    rfl

/-- A word or a number is read to its end and is a token there. -/
theorem scans_run {state : List Char → Reading} {first : Char} {token : Token}
    (hfirst : start? first = some (state [first], []))
    (hmore : ∀ read, ∀ c ∈ cs, step? (state read) c = some (state (c :: read), []))
    (hfinish : finish? (state (first :: cs).reverse) = some [token])
    (hstep : ∀ c, c.isLower = false → isNumberChar c = false →
      step? (state (first :: cs).reverse) c = (start? c).map fun (next, tokens) => (next, token :: tokens)) :
    Scans (first :: cs) [token] := by
  intro rest found hends hrest
  have hstart : scan? (first :: cs ++ rest) = scanFrom? (state [first]) (cs ++ rest) :=
    scanFrom?_skip (show step? .blank first = some (state [first], []) from hfirst)
  rw [hstart, scanFrom?_run hmore, ← List.reverse_cons]
  exact scanFrom?_of_ends hfinish hstep hends hrest

theorem scans_word {first : Char} {token : Token} (hfirst : start? first = some (.word [first], []))
    (hlower : ∀ c ∈ cs, c.isLower = true) (hword : word? (first :: cs).reverse = some token) :
    Scans (first :: cs) [token] := by
  refine scans_run hfirst (fun _ c hc => if_pos (hlower c hc)) ?_ ?_
  · rw [finish?, hword]
    rfl
  · intro c hc _
    have hnot : ¬ c.isLower = true := by
      rw [hc]
      exact Bool.false_ne_true
    rw [step?, if_neg hnot, hword]
    rfl

theorem scans_number {first : Char} {token : Token} (hfirst : start? first = some (.number [first], []))
    (hchars : ∀ c ∈ cs, isNumberChar c = true) (hnumber : number? (first :: cs).reverse = some token) :
    Scans (first :: cs) [token] := by
  refine scans_run hfirst (fun _ c hc => if_pos (hchars c hc)) ?_ ?_
  · rw [finish?, hnumber]
    rfl
  · intro c _ hc
    have hnot : ¬ isNumberChar c = true := by
      rw [hc]
      exact Bool.false_ne_true
    rw [step?, if_neg hnot, hnumber]
    rfl

theorem isNumberChar_of_isDigit {c : Char} (h : c.isDigit = true) : isNumberChar c = true := by
  simp [isNumberChar, h]

/-- A number starts with a digit or a minus sign. -/
theorem start?_number {c : Char} (h : c.isDigit = true ∨ c = '-') : start? c = some (.number [c], []) := by
  rcases h with h | rfl
  · have hblank : isBlank c = false := by
      rw [← Bool.not_eq_true]
      intro hblank
      simp only [isBlank, Bool.or_eq_true, decide_eq_true_eq] at hblank
      rcases hblank with ((rfl | rfl) | rfl) | rfl <;> cases h
    have hlower : c.isLower = false := by
      have hrange : 48 ≤ c.toNat ∧ c.toNat ≤ 57 := Char.isDigit_iff_toNat.1 h
      rw [← Bool.not_eq_true]
      intro hlower
      have hle : 97 ≤ c.toNat := of_decide_eq_true (Bool.and_eq_true_iff.1 hlower).1
      omega
    unfold start?
    split
    -- A mark is no digit.
    iterate 7 cases h
    rw [hblank, hlower, isNumberChar_of_isDigit h]
    rfl
  · rfl

theorem isDigit_of_natural? {digits : List Char} {n : Nat} (h : Text.natural? digits = some n) :
    ∀ c ∈ digits, c.isDigit = true := by
  unfold Text.natural? at h
  split at h
  · next hdigits => exact List.all_eq_true.1 hdigits.2
  · cases h

theorem isNumberChar_of_exponent? {exponent : List Char} {power : Int} (h : Number.exponent? exponent = some power) :
    ∀ c ∈ exponent, isNumberChar c = true := by
  have hdigits : ∀ {digits : List Char} {n : Nat}, Text.natural? digits = some n →
      ∀ c ∈ digits, isNumberChar c = true :=
    fun hn c hc => isNumberChar_of_isDigit (isDigit_of_natural? hn c hc)
  unfold Number.exponent? at h
  split at h
  all_goals
    obtain ⟨_, hnatural, -⟩ := Option.map_eq_some_iff.1 h
    obtain ⟨n, hn, -⟩ := Option.bind_eq_some_iff.1 hnatural
  · exact List.forall_mem_cons.2 ⟨rfl, hdigits hn⟩
  · exact List.forall_mem_cons.2 ⟨rfl, hdigits hn⟩
  · exact hdigits hn

/-- A literal is written with characters of numbers. -/
theorem isNumberChar_of_mem_text {l : Number.Literal} {exponent : List Char} (h : l.Spelled exponent) :
    ∀ c ∈ l.text exponent, isNumberChar c = true := by
  have hsign : ∀ c ∈ Number.sign l.negative, isNumberChar c = true := by
    cases l.negative
    · exact List.forall_mem_nil _
    · exact List.forall_mem_singleton.2 rfl
  have hwhole : ∀ c ∈ l.whole, isNumberChar c = true :=
    fun c hc => isNumberChar_of_isDigit (h.whole.isDigit c hc)
  have hpointed : ∀ c ∈ Number.pointed l.fraction, isNumberChar c = true := by
    have hfraction := h.fraction
    cases hl : l.fraction with
    | nil => exact List.forall_mem_nil _
    | cons d digits =>
      rw [hl] at hfraction
      exact List.forall_mem_cons.2 ⟨rfl, fun c hc => isNumberChar_of_isDigit (hfraction c hc)⟩
  have hmarked : ∀ c ∈ Number.marked exponent, isNumberChar c = true := by
    have hpower := h.power
    cases exponent with
    | nil => exact List.forall_mem_nil _
    | cons => exact List.forall_mem_cons.2 ⟨rfl, isNumberChar_of_exponent? hpower⟩
  exact List.forall_mem_append.2 ⟨hsign, List.forall_mem_append.2 ⟨hwhole,
    List.forall_mem_append.2 ⟨hpointed, hmarked⟩⟩⟩

theorem exists_first {l : Number.Literal} {exponent : List Char} (h : l.Spelled exponent) :
    ∃ first others, l.text exponent = first :: others ∧ (first.isDigit = true ∨ first = '-') := by
  unfold Number.Literal.text
  cases l.negative with
  | true => exact ⟨'-', _, rfl, .inr rfl⟩
  | false =>
    obtain ⟨c, digits, hwhole⟩ := List.exists_cons_of_ne_nil h.whole.ne_nil
    have hc : c.isDigit = true := h.whole.isDigit c (by rw [hwhole]; exact List.mem_cons_self)
    rw [hwhole]
    exact ⟨c, _, rfl, .inl hc⟩

theorem isNumberChar_of_mem_number (n : Number) : ∀ c ∈ n.text, isNumberChar c = true := by
  obtain ⟨l, exponent, hspelled, htext, -⟩ := n.exists_literal
  rw [htext]
  exact isNumberChar_of_mem_text hspelled

/-- The text of a number is scanned as the number. -/
theorem scans_text (n : Number) : Scans n.text [.num n] := by
  obtain ⟨l, exponent, hspelled, htext, -⟩ := n.exists_literal
  obtain ⟨first, others, hfirst, hstart⟩ := exists_first hspelled
  have hchars := isNumberChar_of_mem_number n
  have hread := n.read?_text
  rw [← htext] at hfirst
  rw [hfirst] at hchars hread ⊢
  refine scans_number (start?_number hstart) (List.forall_mem_cons.1 hchars).2 ?_
  rw [number?, List.reverse_reverse, hread]
  rfl

/-! ## Trees -/

theorem scans_null : Scans (scalarText .null) [.word .null] := scans_word rfl (by simp) rfl

theorem scans_bool (b : Bool) : Scans (scalarText (.bool b)) [.word (.bool b)] := by
  cases b
  · exact scans_word rfl (by simp) rfl
  · exact scans_word rfl (by simp) rfl

theorem scans_quoted (s : String) : Scans (quoted s) [.str s] := fun _ _ _ hrest => scan?_quoted s hrest

theorem Scans.mark {c : Char} {token : Token} {tokens : List Token} (h : Scans cs tokens)
    (hstart : start? c = some (.blank, [token])) : Scans (c :: cs) (token :: tokens) :=
  fun rest found hends hrest => scan?_mark hstart (h rest found hends hrest)

/-- A text goes on behind another with a character that ends words and numbers. -/
theorem Scans.append {cs' : List Char} {c : Char} {tokens tokens' : List Token} (h : Scans cs tokens)
    (h' : Scans (c :: cs') tokens') (hc : c.isLower = false ∧ isNumberChar c = false) :
    Scans (cs ++ c :: cs') (tokens ++ tokens') := by
  intro rest found hends hrest
  rw [List.append_assoc, List.append_assoc]
  exact h _ _ (ends_cons hc) (h' rest found hends hrest)

theorem Scans.named {tokens : List Token} (name : String) (h : Scans cs tokens) :
    Scans (quoted name ++ ':' :: cs) (.str name :: .colon :: tokens) :=
  (scans_quoted name).append (h.mark rfl) (by decide)

theorem scans_nil : Scans [] [] := fun _ _ _ hrest => hrest

mutual

theorem scans_compact : (tree : Json) → Scans tree.compact tree.tokens
  | .null => scans_null
  | .bool b => scans_bool b
  | .num n => scans_text n
  | .str s => scans_quoted s
  | .arr items => by
    unfold compact tokens
    exact (scans_compactItems items).mark rfl
  | .obj fields => by
    unfold compact tokens
    exact (scans_compactFields fields).mark rfl

/-- The items, and the bracket behind them. -/
theorem scans_compactItems : (items : List Json) → Scans (compactItems items ++ [']']) (itemTokens items ++ [.closeArr])
  | [] => scans_nil.mark rfl
  | [item] => (scans_compact item).append (scans_nil.mark rfl) (by decide)
  | item :: item' :: items => by
    have hrest := scans_compactItems (item' :: items)
    have hitem := (scans_compact item).append (c := ',') (hrest.mark rfl) (by decide)
    rw [compactItems, itemTokens, List.append_assoc, List.append_assoc]
    · exact hitem
    · nofun
    · nofun

/-- The fields, and the brace behind them. -/
theorem scans_compactFields : (fields : List (String × Json)) →
    Scans (compactFields fields ++ ['\x7d']) (fieldTokens fields ++ [.closeObj])
  | [] => scans_nil.mark rfl
  | [(name, value)] => by
    have hvalue := (scans_compact value).append (c := '\x7d') (scans_nil.mark rfl) (by decide)
    rw [compactFields, fieldTokens, List.append_assoc]
    exact hvalue.named name
  | (name, value) :: field :: fields => by
    have hrest := scans_compactFields (field :: fields)
    have hvalue := (scans_compact value).append (c := ',') (hrest.mark rfl) (by decide)
    have hfield := hvalue.named name
    rw [compactFields, fieldTokens]
    · simp only [List.append_assoc, List.cons_append] at hfield ⊢
      exact hfield
    · nofun
    · nofun

end

/-- The text of a tree without blanks has the tokens of the tree. -/
theorem scan?_compact (tree : Json) : scan? tree.compact = some tree.tokens := (scans_compact tree).scan?_eq_some

/-! ## Trees with one item or field a line -/

theorem Scans.skip {c : Char} {tokens : List Token} (h : Scans cs tokens)
    (hstart : start? c = some (.blank, [])) : Scans (c :: cs) tokens := by
  intro rest found hends hrest
  have hstep : step? .blank c = some (.blank, []) := hstart
  rw [List.cons_append, scan?, scanFrom?_skip hstep]
  exact h rest found hends hrest

theorem Scans.newLine {tokens : List Token} (level : Nat) (h : Scans cs tokens) :
    Scans (newLine level ++ cs) tokens := by
  have hspaces : ∀ n, Scans (List.replicate n ' ' ++ cs) tokens := by
    intro n
    induction n with
    | zero => exact h
    | succ n ih => exact ih.skip rfl
  exact (hspaces (2 * level)).skip rfl

/-- A line break ends words and numbers. -/
theorem Scans.appendLine {cs' : List Char} {tokens tokens' : List Token} (level : Nat) (h : Scans cs tokens)
    (h' : Scans cs' tokens') : Scans (cs ++ (Json.newLine level ++ cs')) (tokens ++ tokens') :=
  h.append (h'.newLine level) (by decide)

mutual

theorem scans_prettyAt : (tree : Json) → (level : Nat) → Scans (tree.prettyAt level) tree.tokens
  | .null, _ => scans_null
  | .bool b, _ => scans_bool b
  | .num n, _ => scans_text n
  | .str s, _ => scans_quoted s
  | .arr [], _ => (scans_nil.mark rfl).mark rfl
  | .arr (item :: items), level => by
    rw [prettyAt, tokens, List.append_assoc]
    · exact (scans_prettyItems (item :: items) (level + 1) level).mark rfl
    · nofun
  | .obj [], _ => (scans_nil.mark rfl).mark rfl
  | .obj (field :: fields), level => by
    rw [prettyAt, tokens, List.append_assoc]
    · exact (scans_prettyFields (field :: fields) (level + 1) level).mark rfl
    · nofun

/-- The items, and the bracket on its line behind them. -/
theorem scans_prettyItems : (items : List Json) → (level outer : Nat) →
    Scans (prettyItems level items ++ (newLine outer ++ [']'])) (itemTokens items ++ [.closeArr])
  | [], _, outer => (scans_nil.mark rfl).newLine outer
  | [item], level, outer => by
    have hitem := (scans_prettyAt item level).appendLine outer (scans_nil.mark (c := ']') rfl)
    rw [prettyItems, itemTokens, List.append_assoc]
    exact hitem.newLine level
  | item :: item' :: items, level, outer => by
    have hrest := scans_prettyItems (item' :: items) level outer
    have hitem := (scans_prettyAt item level).append (c := ',') (hrest.mark rfl) (by decide)
    rw [prettyItems, itemTokens]
    · simp only [List.append_assoc, List.cons_append] at hitem ⊢
      exact hitem.newLine level
    · nofun
    · nofun

/-- The fields, and the brace on its line behind them. -/
theorem scans_prettyFields : (fields : List (String × Json)) → (level outer : Nat) →
    Scans (prettyFields level fields ++ (newLine outer ++ ['\x7d'])) (fieldTokens fields ++ [.closeObj])
  | [], _, outer => (scans_nil.mark rfl).newLine outer
  | [(name, value)], level, outer => by
    have hvalue := (scans_prettyAt value level).appendLine outer (scans_nil.mark (c := '\x7d') rfl)
    have hfield := (hvalue.skip (c := ' ') rfl).named name
    rw [prettyFields, fieldTokens]
    simp only [List.append_assoc, List.cons_append] at hfield ⊢
    exact hfield.newLine level
  | (name, value) :: field :: fields, level, outer => by
    have hrest := scans_prettyFields (field :: fields) level outer
    have hvalue := (scans_prettyAt value level).append (c := ',') (hrest.mark rfl) (by decide)
    have hfield := (hvalue.skip (c := ' ') rfl).named name
    rw [prettyFields, fieldTokens]
    · simp only [List.append_assoc, List.cons_append] at hfield ⊢
      exact hfield.newLine level
    · nofun
    · nofun

end

/-- The text with one item or field a line has the tokens of the tree. -/
theorem scan?_prettyAt (tree : Json) (level : Nat) : scan? (tree.prettyAt level) = some tree.tokens :=
  (scans_prettyAt tree level).scan?_eq_some

end Token

end SearchJoin.Json
