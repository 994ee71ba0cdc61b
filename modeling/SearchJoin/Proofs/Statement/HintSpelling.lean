import SearchJoin.Proofs.Statement.HintList
import SearchJoin.Proofs.Text.Digits
import Mathlib.Data.List.Forall2

/-!
# The spellings of hints

A hint may be written with its letters in any case, with blanks around its name, its parentheses, its commas and
its parameters, and in a comment of either kind. However it is written it is read as the hint.

Main statement: `Hint.parse_spelling`.
-/

namespace SearchJoin.Hint

variable {text : String} {hint : Hint} {atBreak : Bool} {cs ds word body : List Char}
  {words : List (List Char)}

/-- Blanks may be put in next to a parenthesis, a comma, or a blank that is there. -/
def isBreak (c : Char) : Bool := c = '(' || c = ')' || c = ',' || Text.isBlank c

/-- The second text is the first with its letters in any case and with blanks put in. These stand at the ends of
the text or next to a break; `atBreak` says that what comes before lets them stand here. -/
inductive Respelled : Bool → List Char → List Char → Prop where
  | nil {atBreak : Bool} : Respelled atBreak [] []
  | char {atBreak : Bool} {c d : Char} {cs ds : List Char} (hcase : d.toUpper = c.toUpper)
    (hrest : Respelled (isBreak c) cs ds) : Respelled atBreak (c :: cs) (d :: ds)
  | blank {atBreak : Bool} {d : Char} {cs ds : List Char} (hblank : Text.isBlank d = true)
    (hplace : atBreak = true ∨ ∀ c ∈ cs.head?, isBreak c = true)
    (hrest : Respelled true cs ds) : Respelled atBreak cs (d :: ds)

/-- A text that stands alone, or in a comment of either kind with blanks around it. -/
inductive Enclosed (body : List Char) : List Char → Prop where
  | bare : Enclosed body body
  | comment {mark before after : List Char} (hmark : mark = ['/', '*'] ∨ mark = ['/', '*', '!'])
    (hbefore : Text.Blank before) (hafter : Text.Blank after) :
    Enclosed body (before ++ (mark ++ body ++ ['*', '/']) ++ after)

/-- A spelling of a hint. -/
def Spelling (hint : Hint) (text : String) : Prop :=
  ∃ body, Respelled true hint.text.toList body ∧ Enclosed body text.toList

/-! ## Comments -/

/-- Where no mark occurs in a text only its comment is taken off. -/
theorem stripComment_of_enclosed (hslash : '/' ∉ body) (hbang : '!' ∉ body) (hne : body ≠ [])
    (h : Enclosed body cs) : stripComment cs = Text.trim body := by
  obtain ⟨c, rest, rfl⟩ := List.exists_cons_of_ne_nil hne
  have hc : c ≠ '/' := fun hc => hslash (hc ▸ List.mem_cons_self)
  have hc' : c ≠ '!' := fun hc => hbang (hc ▸ List.mem_cons_self)
  have hend : ¬ ['*', '/'] <:+ c :: rest := fun hsuffix => hslash (hsuffix.subset (by decide))
  cases h with
  | bare =>
    have htrim : '/' ∉ Text.trim (c :: rest) := by
      obtain ⟨before, after, -, -, hcs⟩ := Text.exists_padded (c :: rest)
      intro hmem
      rw [hcs] at hslash
      exact hslash (List.mem_append_left _ (List.mem_append_right _ hmem))
    have hopen : ∀ mark : List Char, '/' ∈ mark → ¬ mark <+: Text.trim (c :: rest) :=
      fun mark hmark hleads => htrim (hleads.subset hmark)
    have hclose : ¬ ['*', '/'] <:+ Text.trim (c :: rest) := fun hsuffix => htrim (hsuffix.subset (by decide))
    rw [stripComment, Text.dropCopies_of_not_isPrefix (hopen _ (by decide)),
      Text.dropCopies_of_not_isPrefix (hopen _ (by decide)), Text.dropCopiesEnd_of_not_isSuffix hclose,
      Text.trim_trim]
  | @comment mark before after hmark hbefore hafter =>
    have hopen : ∀ rest' : List Char, ¬ ('/' :: rest') <+: (c :: rest) ++ ['*', '/'] := by
      intro rest' hleads
      exact hc (List.cons_prefix_cons.1 hleads).1.symm
    have hclose : Text.Tight ['*', '/'] := Text.tight_of_solid (by simp [Text.isBlank, Text.blankRanges])
    rcases hmark with rfl | rfl
    · have hmark : Text.Tight ['/', '*'] := Text.tight_of_solid (by simp [Text.isBlank, Text.blankRanges])
      have htight := hmark.enclose hclose (by decide) (by decide) (c :: rest)
      have hdirective : ¬ ['/', '*', '!'] <+: ['/', '*'] ++ ((c :: rest) ++ ['*', '/']) := by
        intro hleads
        have htail := (List.cons_prefix_cons.1 (List.cons_prefix_cons.1 hleads).2).2
        exact hc' (List.cons_prefix_cons.1 htail).1.symm
      rw [stripComment, Text.trim_padded hbefore htight hafter, List.append_assoc,
        Text.dropCopies_of_not_isPrefix hdirective, Text.dropCopies_append (by decide) (hopen _),
        Text.dropCopiesEnd_append (by decide) hend]
    · have hmark : Text.Tight ['/', '*', '!'] := Text.tight_of_solid (by simp [Text.isBlank, Text.blankRanges])
      have htight := hmark.enclose hclose (by decide) (by decide) (c :: rest)
      rw [stripComment, Text.trim_padded hbefore htight hafter, List.append_assoc,
        Text.dropCopies_append (by decide) (hopen _), Text.dropCopies_of_not_isPrefix (hopen _),
        Text.dropCopiesEnd_append (by decide) hend]

/-! ## Words and marks of a spelling -/

theorem isBreak_eq_false_of_isAlpha {c : Char} (h : c.isAlpha = true) : isBreak c = false := by
  have hne : ∀ mark : Char, mark.isAlpha = false → c ≠ mark := by
    rintro mark hmark rfl
    rw [h] at hmark
    cases hmark
  simp [isBreak, hne '(' rfl, hne ')' rfl, hne ',' rfl, Text.isBlank_eq_false_of_isAlpha h]

/-- A word has no breaks in any case. -/
theorem isBreak_of_upper_eq {word' : List Char} (hword : ∀ c ∈ word, isBreak c = false)
    (h : Text.upper word' = Text.upper word) : ∀ c ∈ word', isBreak c = false := by
  intro d hd
  obtain ⟨c, hc, hcase⟩ := Text.exists_mem_of_upper_eq h hd
  rcases Text.eq_or_isAlpha_of_toUpper_eq hcase with rfl | ⟨halpha, -⟩
  · exact hword d hc
  · exact isBreak_eq_false_of_isAlpha halpha

namespace Respelled

theorem refl (atBreak : Bool) (cs : List Char) : Respelled atBreak cs cs := by
  induction cs generalizing atBreak with
  | nil => exact .nil
  | cons c cs ih => exact .char rfl (ih _)

theorem beforeBreak {c d : Char} (hblank : Text.isBlank d = true) (hbreak : isBreak c = true)
    (h : Respelled true (c :: cs) ds) : Respelled atBreak (c :: cs) (d :: ds) := by
  refine .blank hblank (.inr ?_) h
  rintro _ ⟨⟩
  exact hbreak

/-- The first character, after blanks. -/
theorem exists_cons {c : Char} (h : Respelled atBreak (c :: cs) ds) :
    ∃ before d ds', ds = before ++ d :: ds' ∧ Text.Blank before ∧ d.toUpper = c.toUpper ∧
      Respelled (isBreak c) cs ds' := by
  generalize hcons : c :: cs = all at h
  induction h with
  | nil => cases hcons
  | char hcase hrest =>
    cases hcons
    exact ⟨[], _, _, rfl, Text.blank_nil, hcase, hrest⟩
  | @blank _ b _ _ hblank _ _ ih =>
    obtain ⟨before, d, ds', rfl, hbefore, hcase, hrest⟩ := ih hcons
    exact ⟨b :: before, d, ds', rfl, List.forall_mem_cons.2 ⟨hblank, hbefore⟩, hcase, hrest⟩

/-- A parenthesis or a comma, after blanks. -/
theorem exists_mark {c : Char} (hc : c.isAlpha = false) (h : Respelled atBreak (c :: cs) ds) :
    ∃ before ds', ds = before ++ c :: ds' ∧ Text.Blank before ∧ Respelled (isBreak c) cs ds' := by
  obtain ⟨before, d, ds', hds, hbefore, hcase, hrest⟩ := h.exists_cons
  rcases Text.eq_or_isAlpha_of_toUpper_eq hcase with rfl | ⟨-, halpha⟩
  · exact ⟨before, ds', hds, hbefore, hrest⟩
  · rw [hc] at halpha
    cases halpha

/-- Inside a word no blank is put in. -/
theorem exists_inside (hword : ∀ c ∈ word, isBreak c = false) (h : Respelled false (word ++ cs) ds) :
    ∃ word' ds', ds = word' ++ ds' ∧ Text.upper word' = Text.upper word ∧ Respelled false cs ds' := by
  induction word generalizing ds with
  | nil => exact ⟨[], ds, rfl, rfl, h⟩
  | cons c word ih =>
    obtain ⟨hc, hword⟩ := List.forall_mem_cons.1 hword
    rw [List.cons_append] at h
    cases h with
    | @char _ _ d _ ds hcase hrest =>
      rw [hc] at hrest
      obtain ⟨word', ds', rfl, hupper, hrest⟩ := ih hword hrest
      refine ⟨d :: word', ds', rfl, ?_, hrest⟩
      show d.toUpper :: Text.upper word' = c.toUpper :: Text.upper word
      rw [hcase, hupper]
    | blank _ hplace _ =>
      rcases hplace with hplace | hplace
      · cases hplace
      · have hbreak := hplace c rfl
        rw [hc] at hbreak
        cases hbreak

/-- A word in any case, after blanks. -/
theorem exists_word (hne : word ≠ []) (hword : ∀ c ∈ word, isBreak c = false)
    (h : Respelled atBreak (word ++ cs) ds) :
    ∃ before word' ds', ds = before ++ (word' ++ ds') ∧ Text.Blank before ∧
      (Text.upper word' = Text.upper word ∧ word' ≠ [] ∧ ∀ c ∈ word', isBreak c = false) ∧
      Respelled false cs ds' := by
  obtain ⟨c, word, rfl⟩ := List.exists_cons_of_ne_nil hne
  obtain ⟨hc, hrest⟩ := List.forall_mem_cons.1 hword
  obtain ⟨before, d, ds', rfl, hbefore, hcase, h⟩ := h.exists_cons
  rw [hc] at h
  obtain ⟨word', ds', rfl, hupper, h⟩ := exists_inside hrest h
  have hcases : Text.upper (d :: word') = Text.upper (c :: word) := by
    show d.toUpper :: Text.upper word' = c.toUpper :: Text.upper word
    rw [hcase, hupper]
  exact ⟨before, d :: word', ds', rfl, hbefore, ⟨hcases, List.cons_ne_nil _ _, isBreak_of_upper_eq hword hcases⟩, h⟩

theorem blank_of_nil (h : Respelled atBreak [] ds) : Text.Blank ds := by
  generalize hnil : [] = all at h
  induction h with
  | nil => exact Text.blank_nil
  | char => cases hnil
  | blank hblank _ _ ih => exact List.forall_mem_cons.2 ⟨hblank, ih hnil⟩

/-- A spelling has no characters of its own but blanks. -/
theorem mem_cases (h : Respelled atBreak cs ds) :
    ∀ d ∈ ds, Text.isBlank d = true ∨ ∃ c ∈ cs, d.toUpper = c.toUpper := by
  induction h with
  | nil => intro d hd; cases hd
  | @char _ c d cs ds hcase _ ih =>
    refine List.forall_mem_cons.2 ⟨.inr ⟨c, List.mem_cons_self, hcase⟩, ?_⟩
    intro e he
    rcases ih e he with hblank | ⟨c', hc', hcase'⟩
    · exact .inl hblank
    · exact .inr ⟨c', List.mem_cons_of_mem _ hc', hcase'⟩
  | blank hblank _ _ ih => exact List.forall_mem_cons.2 ⟨.inl hblank, ih⟩

theorem notMem {d : Char} (hblank : Text.isBlank d = false) (halpha : d.isAlpha = false)
    (hd : d ∉ cs) (h : Respelled atBreak cs ds) : d ∉ ds := by
  intro hmem
  rcases h.mem_cases d hmem with hblank' | ⟨c, hc, hcase⟩
  · rw [hblank] at hblank'
    cases hblank'
  · rcases Text.eq_or_isAlpha_of_toUpper_eq hcase with rfl | ⟨halpha', -⟩
    · exact hd hc
    · rw [halpha] at halpha'
      cases halpha'

end Respelled

/-! ## Lists of a spelling -/

/-- Words with commas and blanks between them, and a closing parenthesis. -/
def closing : List (List Char) → List Char
  | [] => [')']
  | [word] => word ++ [')']
  | word :: words => word ++ ',' :: ' ' :: closing words

theorem isBlank_eq_false_of_isBreak {c : Char} (h : isBreak c = false) : Text.isBlank c = false := by
  unfold isBreak at h
  exact (Bool.or_eq_false_iff.1 h).2

/-- A mark is no part of a word, nor of the blanks around it. -/
theorem notMem_padded {c : Char} {before after : List Char} (hbreak : isBreak c = true)
    (hblank : Text.isBlank c = false) (hbefore : Text.Blank before)
    (hword : ∀ c ∈ word, isBreak c = false) (hafter : Text.Blank after) : c ∉ before ++ word ++ after := by
  intro hmem
  rcases List.mem_append.1 hmem with hmem | hmem
  · rcases List.mem_append.1 hmem with hmem | hmem
    · rw [hbefore c hmem] at hblank
      cases hblank
    · rw [hword c hmem] at hbreak
      cases hbreak
  · rw [hafter c hmem] at hblank
    cases hblank

theorem filter_trim_padded {before after : List Char} (hbefore : Text.Blank before)
    (hword : ∀ c ∈ word, isBreak c = false) (hne : word ≠ []) (hafter : Text.Blank after)
    (pieces : List (List Char)) :
    (((before ++ word ++ after) :: pieces).map Text.trim).filter (· ≠ []) =
      word :: (pieces.map Text.trim).filter (· ≠ []) := by
  have htight : Text.Tight word := Text.tight_of_solid fun c hc => isBlank_eq_false_of_isBreak (hword c hc)
  rw [List.map_cons, Text.trim_padded hbefore htight hafter]
  exact List.filter_cons_of_pos (decide_eq_true hne)

theorem filled_padded {before after : List Char} (hbefore : Text.Blank before)
    (hword : ∀ c ∈ word, isBreak c = false) (hne : word ≠ []) (hafter : Text.Blank after) :
    filled (before ++ word ++ after) = [word] := by
  have hcomma : ',' ∉ before ++ word ++ after := notMem_padded rfl rfl hbefore hword hafter
  rw [filled, Text.split_of_notMem hcomma]
  exact filter_trim_padded hbefore hword hne hafter []

theorem filled_padded_comma {before after : List Char} (hbefore : Text.Blank before)
    (hword : ∀ c ∈ word, isBreak c = false) (hne : word ≠ []) (hafter : Text.Blank after)
    (rest : List Char) : filled (before ++ word ++ after ++ ',' :: rest) = word :: filled rest := by
  have hcomma : ',' ∉ before ++ word ++ after := notMem_padded rfl rfl hbefore hword hafter
  rw [filled, Text.split_append hcomma]
  exact filter_trim_padded hbefore hword hne hafter _

theorem filled_blank_append {before : List Char} (hbefore : Text.Blank before) (rest : List Char) :
    filled (before ++ rest) = filled rest := by
  rw [filled, Text.map_trim_split_blank_append rfl hbefore, filled]

/-- In a spelling of a list the entries are the words, up to case. -/
theorem Respelled.exists_list (hwords : ∀ word ∈ words, word ≠ [] ∧ ∀ c ∈ word, isBreak c = false)
    (hne : words ≠ []) (h : Respelled atBreak (closing words) ds) :
    ∃ inside after, ds = inside ++ ')' :: after ∧ Text.Blank after ∧
      List.Forall₂ (fun entry word => Text.upper entry = Text.upper word) (filled inside) words := by
  induction words generalizing atBreak ds with
  | nil => exact absurd rfl hne
  | cons word words ih =>
    obtain ⟨⟨hword, hsolid⟩, hrest⟩ := List.forall_mem_cons.1 hwords
    cases words with
    | nil =>
      obtain ⟨before, word', ds, rfl, hbefore, ⟨hupper, hword', hsolid'⟩, h⟩ := h.exists_word hword hsolid
      obtain ⟨between, after, rfl, hbetween, h⟩ := h.exists_mark rfl
      refine ⟨before ++ word' ++ between, after, by simp, h.blank_of_nil, ?_⟩
      rw [filled_padded hbefore hsolid' hword' hbetween]
      exact .cons hupper .nil
    | cons word₂ words =>
      obtain ⟨before, word', ds, rfl, hbefore, ⟨hupper, hword', hsolid'⟩, h⟩ := h.exists_word hword hsolid
      obtain ⟨between, ds, rfl, hbetween, h⟩ := h.exists_mark rfl
      obtain ⟨early, ds, rfl, hearly, h⟩ := h.exists_mark rfl
      obtain ⟨inside, after, rfl, hafter, hentries⟩ := ih hrest (List.cons_ne_nil _ _) h
      have hblank : Text.Blank (early ++ [' ']) := hearly.append (List.forall_mem_singleton.2 rfl)
      refine ⟨before ++ word' ++ between ++ ',' :: (early ++ [' '] ++ inside), after, by simp, hafter, ?_⟩
      rw [filled_padded_comma hbefore hsolid' hword' hbetween, filled_blank_append hblank]
      exact .cons hupper hentries

/-! ## The text of a hint -/

/-- The name that a hint is written with. -/
def label : Hint → List Char
  | .forceNestedLoop => "FORCE_NESTED_LOOP".toList
  | .multiSearchSize _ => "NL_MULTISEARCH_SIZE".toList
  | .joinLimit _ _ => "JOIN_LIMIT".toList
  | .hashBuildSide _ => "HASH_BUILD_SIDE".toList

/-- The parameters that a hint is written with. -/
def written : Hint → List (List Char)
  | .forceNestedLoop => []
  | .multiSearchSize size => [Text.decimalDigits size.toNat]
  | .joinLimit first second => [Text.decimalDigits first.toNat, Text.decimalDigits second.toNat]
  | .hashBuildSide side => [side.name.toList]

theorem toList_toString (n : UInt64) : (toString n).toList = Text.decimalDigits n.toNat := Nat.toList_repr

theorem text_of_written (h : hint.written ≠ []) :
    hint.text.toList = hint.label ++ '(' :: closing hint.written := by
  cases hint with
  | forceNestedLoop => exact absurd rfl h
  | multiSearchSize size =>
    show (("NL_MULTISEARCH_SIZE(" ++ toString size) ++ ")").toList = _
    rw [String.toList_append, String.toList_append, toList_toString]
    rfl
  | joinLimit first second =>
    show (((("JOIN_LIMIT(" ++ toString first) ++ ", ") ++ toString second) ++ ")").toList = _
    rw [String.toList_append, String.toList_append, String.toList_append, String.toList_append,
      toList_toString, toList_toString, List.append_assoc, List.append_assoc, List.append_assoc]
    rfl
  | hashBuildSide side =>
    show (("HASH_BUILD_SIDE(" ++ side.name) ++ ")").toList = _
    rw [String.toList_append, String.toList_append]
    rfl

theorem text_of_not_written (h : hint.written = []) : hint.text.toList = hint.label := by
  cases hint with
  | forceNestedLoop => rfl
  | multiSearchSize | joinLimit | hashBuildSide => cases h

/-- The name and the parameters of a hint are words, in which no mark of a comment occurs. -/
structure IsWord (word : List Char) : Prop where
  ne_nil : word ≠ []
  solid : ∀ c ∈ word, isBreak c = false
  slash : '/' ∉ word
  bang : '!' ∉ word

theorem isWord_of_all (hne : word ≠ []) (h : word.all (fun c => !isBreak c && c ≠ '/' && c ≠ '!') = true) :
    IsWord word := by
  simp only [List.all_eq_true, Bool.and_eq_true, Bool.not_eq_true', decide_eq_true_eq] at h
  exact ⟨hne, fun c hc => (h c hc).1.1, fun hc => (h _ hc).1.2 rfl, fun hc => (h _ hc).2 rfl⟩

theorem isWord_label (hint : Hint) : IsWord hint.label := by
  cases hint with
  | forceNestedLoop => show IsWord "FORCE_NESTED_LOOP".toList; exact isWord_of_all (by decide) rfl
  | multiSearchSize => show IsWord "NL_MULTISEARCH_SIZE".toList; exact isWord_of_all (by decide) rfl
  | joinLimit => show IsWord "JOIN_LIMIT".toList; exact isWord_of_all (by decide) rfl
  | hashBuildSide => show IsWord "HASH_BUILD_SIDE".toList; exact isWord_of_all (by decide) rfl

theorem isWord_decimalDigits (n : Nat) : IsWord (Text.decimalDigits n) := by
  have hdigits : ∀ c ∈ Text.decimalDigits n, 48 ≤ c.toNat ∧ c.toNat ≤ 57 :=
    fun c hc => Char.isDigit_iff_toNat.1 (Text.isDigit_of_mem_decimalDigits hc)
  have hnotMem : ∀ mark : Char, mark.toNat < 48 → mark ∉ Text.decimalDigits n := by
    intro mark hmark hmem
    have := hdigits mark hmem
    omega
  refine ⟨Text.decimalDigits_ne_nil n, ?_, hnotMem '/' (by decide), hnotMem '!' (by decide)⟩
  intro c hc
  have hne : ∀ mark : Char, mark.toNat < 48 → c ≠ mark := by
    rintro mark hmark rfl
    exact hnotMem c hmark hc
  have hrange := hdigits c hc
  simp [isBreak, hne '(' (by decide), hne ')' (by decide), hne ',' (by decide), Text.isBlank, Text.blankRanges]
  omega

theorem isWord_written (hint : Hint) : ∀ word ∈ hint.written, IsWord word := by
  cases hint with
  | forceNestedLoop => exact List.forall_mem_nil _
  | multiSearchSize size => exact List.forall_mem_singleton.2 (isWord_decimalDigits _)
  | joinLimit first second =>
    exact List.forall_mem_cons.2 ⟨isWord_decimalDigits _, List.forall_mem_singleton.2 (isWord_decimalDigits _)⟩
  | hashBuildSide side =>
    refine List.forall_mem_singleton.2 ?_
    cases side with
    | first => show IsWord "first".toList; exact isWord_of_all (by decide) rfl
    | second => show IsWord "second".toList; exact isWord_of_all (by decide) rfl

theorem mem_closing {c : Char} (h : c ∈ closing words) : isBreak c = true ∨ ∃ word ∈ words, c ∈ word := by
  induction words with
  | nil =>
    rw [List.mem_singleton.1 h]
    exact .inl rfl
  | cons word words ih =>
    cases words with
    | nil =>
      rcases List.mem_append.1 h with h | h
      · exact .inr ⟨word, List.mem_cons_self, h⟩
      · rw [List.mem_singleton.1 h]
        exact .inl rfl
    | cons word₂ words =>
      rcases List.mem_append.1 h with h | h
      · exact .inr ⟨word, List.mem_cons_self, h⟩
      · rcases List.mem_cons.1 h with rfl | h
        · exact .inl rfl
        · rcases List.mem_cons.1 h with rfl | h
          · exact .inl rfl
          · rcases ih h with h | ⟨word', hword', h⟩
            · exact .inl h
            · exact .inr ⟨word', List.mem_cons_of_mem _ hword', h⟩

/-- A mark that occurs in no word and is no break does not occur in the text of a hint. -/
theorem notMem_text {mark : Char} (hbreak : isBreak mark = false)
    (hword : ∀ word, IsWord word → mark ∉ word) (hint : Hint) : mark ∉ hint.text.toList := by
  have hlabel : mark ∉ hint.label := hword _ hint.isWord_label
  by_cases hwritten : hint.written = []
  · rw [text_of_not_written hwritten]
    exact hlabel
  · rw [text_of_written hwritten]
    intro hmem
    rcases List.mem_append.1 hmem with hmem | hmem
    · exact hlabel hmem
    · rcases List.mem_cons.1 hmem with rfl | hmem
      · cases hbreak
      · rcases mem_closing hmem with h | ⟨word, hmem, h⟩
        · rw [hbreak] at h
          cases h
        · exact hword word (isWord_written hint word hmem) h

/-! ## Reading a spelling -/

theorem count_of_upper_eq {name : String} {n : UInt64} {entry : List Char} (hpos : 0 < n)
    (h : Text.upper entry = Text.upper (Text.decimalDigits n.toNat)) : count name entry = .ok n := by
  have halpha : ∀ c ∈ Text.decimalDigits n.toNat, c.isAlpha = false := by
    intro c hc
    have hdigit : 48 ≤ c.toNat ∧ c.toNat ≤ 57 :=
      Char.isDigit_iff_toNat.1 (Text.isDigit_of_mem_decimalDigits hc)
    rw [← Bool.not_eq_true, Text.isAlpha_iff]
    omega
  rw [Text.eq_of_upper_eq halpha h, count, Text.word?_decimalDigits]
  exact if_neg (UInt64.pos_iff_ne_zero.1 hpos)

theorem side_of_upper_eq {side : Side} {entry : List Char}
    (h : Text.upper entry = Text.upper side.name.toList) : Hint.side entry = .ok side := by
  have hlower : Text.lower entry = side.name.toList := by
    rw [Text.lower_eq_of_upper_eq h]
    cases side <;> rfl
  unfold Hint.side
  rw [hlower, String.ofList_toList]
  cases side <;> rfl

/-- The name and the parameters make the hint, in any case. -/
theorem makes_of_upper_eq {name : List Char} {entries : List (List Char)} (hcounts : ∀ n ∈ hint.counts, 0 < n)
    (hname : Text.upper name = Text.upper hint.label)
    (hentries : List.Forall₂ (fun entry word => Text.upper entry = Text.upper word) entries hint.written) :
    Makes (.ofList name) entries hint := by
  have hlabel : ∀ known : String, Text.upper hint.label = known.toList →
      String.ofList (Text.upper (String.ofList name).toList) = known := by
    intro known hknown
    rw [String.toList_ofList, hname, hknown, String.ofList_toList]
  cases hint with
  | forceNestedLoop =>
    cases hentries
    exact .forceNestedLoop (.inl (hlabel _ rfl))
  | multiSearchSize size =>
    obtain ⟨entry, rest, hentry, hrest, rfl⟩ := List.forall₂_cons_right_iff.1 hentries
    cases hrest
    have hsize : 0 < size := hcounts size (List.mem_singleton_self size)
    exact .multiSearchSize (hlabel _ rfl) (count_of_upper_eq hsize hentry)
  | joinLimit first second =>
    obtain ⟨entry, rest, hentry, hrest, rfl⟩ := List.forall₂_cons_right_iff.1 hentries
    obtain ⟨entry', rest', hentry', hrest', rfl⟩ := List.forall₂_cons_right_iff.1 hrest
    cases hrest'
    obtain ⟨hfirst, hsecond⟩ := List.forall_mem_cons.1 hcounts
    exact .joinLimit (hlabel _ rfl) (count_of_upper_eq hfirst hentry)
      (count_of_upper_eq (hsecond second (List.mem_singleton_self second)) hentry')
  | hashBuildSide side =>
    obtain ⟨entry, rest, hentry, hrest, rfl⟩ := List.forall₂_cons_right_iff.1 hentries
    cases hrest
    exact .hashBuildSide (hlabel _ rfl) (side_of_upper_eq hentry)

/-- A spelling without its comment has the name and the parameters, up to case. -/
theorem exists_parts_of_respelled (h : Respelled true hint.text.toList body) :
    body ≠ [] ∧ ∃ name entries, parts? (Text.trim body) = some (name, entries) ∧
      Text.upper name = Text.upper hint.label ∧
      List.Forall₂ (fun entry word => Text.upper entry = Text.upper word) entries hint.written := by
  have hlabel := hint.isWord_label
  by_cases hwritten : hint.written = []
  · rw [text_of_not_written hwritten, ← List.append_nil hint.label] at h
    obtain ⟨before, name, after, rfl, hbefore, ⟨hname, hne, hsolid⟩, h⟩ := h.exists_word hlabel.ne_nil hlabel.solid
    have htight : Text.Tight name := Text.tight_of_solid fun c hc => isBlank_eq_false_of_isBreak (hsolid c hc)
    have hopen : '(' ∉ name := by
      intro hmem
      have hbreak := hsolid '(' hmem
      cases hbreak
    refine ⟨by simp [hne], name, [], ?_, hname, ?_⟩
    · rw [← List.append_assoc, Text.trim_padded hbefore htight h.blank_of_nil, parts?_of_notMem hopen]
    · rw [hwritten]
      exact .nil
  · rw [text_of_written hwritten] at h
    obtain ⟨before, name, ds, rfl, hbefore, ⟨hname, hne, hsolid⟩, h⟩ := h.exists_word hlabel.ne_nil hlabel.solid
    obtain ⟨between, ds, rfl, hbetween, h⟩ := h.exists_mark rfl
    obtain ⟨inside, after, rfl, hafter, hentries⟩ := h.exists_list
      (fun word hword => ⟨(hint.isWord_written word hword).ne_nil, (hint.isWord_written word hword).solid⟩) hwritten
    have htight : Text.Tight name := Text.tight_of_solid fun c hc => isBlank_eq_false_of_isBreak (hsolid c hc)
    have hclosed : Text.Tight [')'] := Text.tight_of_solid (by simp [Text.isBlank, Text.blankRanges])
    have hbody := htight.enclose hclosed hne (by decide) (between ++ '(' :: inside)
    have htrim : Text.trim (before ++ (name ++ (between ++ '(' :: (inside ++ ')' :: after)))) =
        name ++ (between ++ '(' :: inside) ++ [')'] := by
      rw [← Text.trim_padded hbefore hbody hafter]
      simp
    have hopen : '(' ∉ name ++ between := by
      have hpadded := notMem_padded (c := '(') rfl rfl Text.blank_nil hsolid hbetween
      rwa [List.nil_append] at hpadded
    have hlist : HasList (Text.trim (before ++ (name ++ (between ++ '(' :: (inside ++ ')' :: after)))))
        (name ++ between) inside [] := by
      rw [htrim]
      exact ⟨by simp, hopen, by decide⟩
    have hname' : Text.trim (name ++ between) = name := by
      have hpadded := Text.trim_padded Text.blank_nil htight hbetween
      rwa [List.nil_append] at hpadded
    refine ⟨by simp [hne], name, filled inside, ?_, hname, hentries⟩
    rw [parts?_eq_some_iff hlist, hname']
    exact ⟨Text.blank_nil, rfl⟩

/-- Every spelling of a hint whose counts are positive is read as the hint, so the text of a hint that has been
read is read as this hint again. -/
theorem parse_spelling (hint : Hint) :
    ((∀ n ∈ hint.counts, 0 < n) → ∀ text, hint.Spelling text → parse text = .ok hint) ∧
      ∀ text, parse text = .ok hint → parse hint.text = .ok hint := by
  have hread : (∀ n ∈ hint.counts, 0 < n) → ∀ text, hint.Spelling text → parse text = .ok hint := by
    rintro hcounts text ⟨body, hbody, henclosed⟩
    have hslash : '/' ∉ body := hbody.notMem rfl rfl (notMem_text rfl (fun _ hword => hword.slash) hint)
    have hbang : '!' ∉ body := hbody.notMem rfl rfl (notMem_text rfl (fun _ hword => hword.bang) hint)
    obtain ⟨hne, name, entries, hparts, hname, hentries⟩ := exists_parts_of_respelled hbody
    rw [parse_eq_ok_iff, stripComment_of_enclosed hslash hbang hne henclosed]
    exact ⟨name, entries, hparts, makes_of_upper_eq hcounts hname hentries⟩
  refine ⟨hread, ?_⟩
  intro text hparse
  exact hread (pos_of_parse_eq_ok hparse) hint.text ⟨_, .refl _ _, .bare⟩

/-- In a comment, in small letters, and with blanks inside the parentheses. -/
theorem parse_spelling_sample :
    let text := " /*! join_limit ( 3, 500 ) */"
    (∀ n ∈ (joinLimit 3 500).counts, 0 < n) ∧ (joinLimit 3 500).Spelling text ∧
      parse text = .ok (.joinLimit 3 500) ∧
      parse (joinLimit 3 500).text = .ok (.joinLimit 3 500) := by
  intro text
  have hcounts : ∀ n ∈ (joinLimit 3 500).counts, 0 < n := by simp [counts]
  have hbody : Respelled true "JOIN_LIMIT(3, 500)".toList " join_limit ( 3, 500 ) ".toList := by
    refine .blank rfl (.inl rfl) ?_
    iterate 10 refine .char rfl ?_
    refine .beforeBreak rfl rfl (.char rfl ?_)
    refine .blank rfl (.inl rfl) ?_
    iterate 6 refine .char rfl ?_
    refine .beforeBreak rfl rfl (.char rfl ?_)
    exact .blank rfl (.inl rfl) .nil
  have hspelling : (joinLimit 3 500).Spelling text := by
    have hblank : Text.Blank [' '] := List.forall_mem_singleton.2 rfl
    have htext : text.toList =
        [' '] ++ (['/', '*', '!'] ++ " join_limit ( 3, 500 ) ".toList ++ ['*', '/']) ++ [] := by decide
    refine ⟨_, hbody, ?_⟩
    rw [htext]
    exact .comment (.inr rfl) hblank Text.blank_nil
  have hparse := (parse_spelling (joinLimit 3 500)).1 hcounts text hspelling
  exact ⟨hcounts, hspelling, hparse, (parse_spelling (joinLimit 3 500)).2 text hparse⟩

end SearchJoin.Hint
