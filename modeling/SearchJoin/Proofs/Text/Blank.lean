import SearchJoin.Text.Blank
import Mathlib.Tactic.SplitIfs

/-!
# Trimming, cutting and spelling

What trimming leaves has no blank at its ends and only blanks around it, and a text of that kind is found again
between any blanks. The pieces between separators are those that were put together.

Main statements: `trim_padded`, `tight_trim`, `split_append`.
-/

namespace SearchJoin.Text

variable {cs ds before body after : List Char}

/-- Nothing but blanks. -/
def Blank (cs : List Char) : Prop := ∀ c ∈ cs, isBlank c = true

/-- No blank at either end. -/
def Tight (cs : List Char) : Prop :=
  (∀ c ∈ cs.head?, isBlank c = false) ∧ (∀ c ∈ cs.getLast?, isBlank c = false)

theorem blank_nil : Blank [] := by
  intro c hc
  cases hc

theorem Blank.append (hc : Blank cs) (hd : Blank ds) : Blank (cs ++ ds) := by
  intro c hmem
  rcases List.mem_append.1 hmem with h | h
  · exact hc c h
  · exact hd c h

theorem Blank.reverse (h : Blank cs) : Blank cs.reverse :=
  fun c hc => h c (List.mem_reverse.1 hc)

/-- A text in which no blank occurs. -/
theorem tight_of_solid (h : ∀ c ∈ cs, isBlank c = false) : Tight cs :=
  ⟨fun c hc => h c (List.mem_of_mem_head? hc), fun c hc => h c (List.mem_of_mem_getLast? hc)⟩

/-- Between texts without blanks at their ends anything may stand. -/
theorem Tight.enclose (hbefore : Tight before) (hafter : Tight after) (hne : before ≠ []) (hne' : after ≠ [])
    (cs : List Char) : Tight (before ++ cs ++ after) := by
  obtain ⟨c, before, rfl⟩ := List.exists_cons_of_ne_nil hne
  refine ⟨hbefore.1, ?_⟩
  intro d hd
  have hlast := List.getLast?_eq_some_getLast hne'
  rw [List.getLast?_append, hlast, Option.some_or] at hd
  rw [← hlast] at hd
  exact hafter.2 d hd

/-! ## Trimming -/

theorem trimStart_blank_append (h : Blank before) (cs : List Char) :
    trimStart (before ++ cs) = trimStart cs := List.dropWhile_append_of_pos h

theorem trimStart_of_head (h : ∀ c ∈ cs.head?, isBlank c = false) : trimStart cs = cs := by
  cases cs with
  | nil => rfl
  | cons c cs =>
    have hc : ¬ isBlank c = true := by
      rw [h c rfl]
      exact Bool.false_ne_true
    exact List.dropWhile_cons_of_neg hc

theorem head_trimStart (cs : List Char) : ∀ c ∈ (trimStart cs).head?, isBlank c = false := by
  intro c hc
  have h := List.head?_dropWhile_not isBlank cs
  rw [show (cs.dropWhile isBlank).head? = some c from hc] at h
  simpa using h

theorem trimEnd_append_blank (h : Blank after) (cs : List Char) : trimEnd (cs ++ after) = trimEnd cs := by
  unfold trimEnd
  rw [List.reverse_append, List.dropWhile_append_of_pos h.reverse]

theorem trimEnd_eq (cs : List Char) : trimEnd cs = (trimStart cs.reverse).reverse := rfl

theorem trimEnd_of_getLast (h : ∀ c ∈ cs.getLast?, isBlank c = false) : trimEnd cs = cs := by
  have hreverse : ∀ c ∈ cs.reverse.head?, isBlank c = false := by
    rw [List.head?_reverse]
    exact h
  rw [trimEnd_eq, trimStart_of_head hreverse, List.reverse_reverse]

theorem trim_of_tight (h : Tight cs) : trim cs = cs := by
  rw [trim, trimStart_of_head h.1, trimEnd_of_getLast h.2]

theorem trim_of_blank (h : Blank cs) : trim cs = [] := by
  have hstart : trimStart cs = [] := by
    rw [← List.append_nil cs, trimStart_blank_append h]
    rfl
  rw [trim, hstart]
  rfl

/-- A text without blanks at its ends is found again between blanks. -/
theorem trim_padded (hbefore : Blank before) (hbody : Tight body) (hafter : Blank after) :
    trim (before ++ body ++ after) = body := by
  rw [List.append_assoc, trim, trimStart_blank_append hbefore]
  cases body with
  | nil => exact trim_of_blank hafter
  | cons c body =>
    have hhead : ∀ d ∈ (c :: body ++ after).head?, isBlank d = false := hbody.1
    rw [trimStart_of_head hhead, trimEnd_append_blank hafter, trimEnd_of_getLast hbody.2]

/-- Around what trimming leaves there are only blanks. -/
theorem exists_padded (cs : List Char) :
    ∃ before after, Blank before ∧ Blank after ∧ cs = before ++ trim cs ++ after := by
  have hstart : cs.takeWhile isBlank ++ trimStart cs = cs := List.takeWhile_append_dropWhile
  have hend : (trimStart cs).reverse.takeWhile isBlank ++ trimStart (trimStart cs).reverse =
      (trimStart cs).reverse := List.takeWhile_append_dropWhile
  refine ⟨cs.takeWhile isBlank, ((trimStart cs).reverse.takeWhile isBlank).reverse, ?_, ?_, ?_⟩
  · intro c hc
    exact List.all_eq_true.1 List.all_takeWhile c hc
  · intro c hc
    exact List.all_eq_true.1 List.all_takeWhile c (List.mem_reverse.1 hc)
  · have hreverse := congrArg List.reverse hend
    rw [List.reverse_append, List.reverse_reverse] at hreverse
    rw [List.append_assoc, trim, trimEnd_eq, hreverse, hstart]

theorem tight_trim (cs : List Char) : Tight (trim cs) := by
  have hlast : ∀ c ∈ (trim cs).getLast?, isBlank c = false := by
    rw [trim, trimEnd_eq, List.getLast?_reverse]
    exact head_trimStart _
  refine ⟨?_, hlast⟩
  -- What trimming the end leaves is where the text starts, or is empty.
  intro c hc
  have hleads : trim cs <+: trimStart cs := by
    rw [trim, trimEnd_eq, ← List.reverse_suffix, List.reverse_reverse]
    exact List.dropWhile_suffix _
  obtain ⟨rest, hrest⟩ := hleads
  refine head_trimStart cs c ?_
  rw [← hrest, List.head?_append, show (trim cs).head? = some c from hc]
  rfl

theorem trim_trim (cs : List Char) : trim (trim cs) = trim cs := trim_of_tight (tight_trim cs)

theorem trim_eq_nil_iff : trim cs = [] ↔ Blank cs := by
  constructor
  · intro h
    obtain ⟨before, after, hbefore, hafter, hcs⟩ := exists_padded cs
    rw [h, List.append_nil] at hcs
    rw [hcs]
    exact hbefore.append hafter
  · exact trim_of_blank

theorem trim_blank_append (h : Blank before) (cs : List Char) : trim (before ++ cs) = trim cs := by
  rw [trim, trimStart_blank_append h, trim]

/-! ## Copies of a mark -/

/-- One copy of a mark is dropped where no other follows. -/
theorem dropCopies_append {mark : List Char} (hmark : mark ≠ []) (h : ¬ mark <+: cs) :
    dropCopies mark (mark ++ cs) = cs := by
  rw [dropCopies, if_pos ⟨hmark, List.prefix_append mark cs⟩, List.drop_left, dropCopies_of_not_isPrefix h]

theorem dropCopiesEnd_append {mark : List Char} (hmark : mark ≠ []) (h : ¬ mark <:+ cs) :
    dropCopiesEnd mark (cs ++ mark) = cs := by
  have hreverse : mark.reverse ≠ [] := mt List.reverse_eq_nil_iff.1 hmark
  have hleads : ¬ mark.reverse <+: cs.reverse := mt List.reverse_prefix.1 h
  rw [dropCopiesEnd, List.reverse_append, dropCopies_append hreverse hleads, List.reverse_reverse]

theorem dropCopiesEnd_of_not_isSuffix {mark : List Char} (h : ¬ mark <:+ cs) :
    dropCopiesEnd mark cs = cs := by
  have hleads : ¬ mark.reverse <+: cs.reverse := mt List.reverse_prefix.1 h
  rw [dropCopiesEnd, dropCopies_of_not_isPrefix hleads, List.reverse_reverse]

/-! ## Cutting -/

theorem split_ne_nil (separator : Char) (cs : List Char) : split separator cs ≠ [] := by
  cases cs with
  | nil => exact List.cons_ne_nil _ _
  | cons c cs =>
    rw [split]
    split
    · exact List.cons_ne_nil _ _
    · split <;> exact List.cons_ne_nil _ _

/-- A piece ends at the first separator. -/
theorem split_append {separator : Char} (h : separator ∉ cs) (ds : List Char) :
    split separator (cs ++ separator :: ds) = cs :: split separator ds := by
  induction cs with
  | nil => rw [List.nil_append, split, if_pos rfl]
  | cons c cs ih =>
    obtain ⟨hne, hrest⟩ := not_or.1 (mt List.mem_cons.2 h)
    rw [List.cons_append, split, if_neg (Ne.symm hne), ih hrest]

/-- Pieces with a separator behind each are cut where they end, and nothing is left behind the last separator. -/
theorem split_flatMap {separator : Char} {pieces : List (List Char)} (h : ∀ piece ∈ pieces, separator ∉ piece) :
    split separator (pieces.flatMap (· ++ [separator])) = pieces ++ [[]] := by
  induction pieces with
  | nil => rfl
  | cons piece pieces ih =>
    obtain ⟨hpiece, hrest⟩ := List.forall_mem_cons.1 h
    rw [List.flatMap_cons, List.append_assoc, List.singleton_append, split_append hpiece, ih hrest]
    rfl

/-- There is one piece more than there are separators. -/
theorem length_split (separator : Char) (cs : List Char) :
    (split separator cs).length = cs.count separator + 1 := by
  induction cs with
  | nil => rfl
  | cons c cs ih =>
    rw [split, List.count_cons]
    by_cases hc : c = separator
    · have hbeq : (c == separator) = true := beq_iff_eq.2 hc
      rw [if_pos hc, if_pos hbeq, List.length_cons, ih]
    · have hbeq : ¬ (c == separator) = true := mt beq_iff_eq.1 hc
      rw [if_neg hc, if_neg hbeq, ← ih]
      split
      · next hnil => exact absurd hnil (split_ne_nil separator cs)
      · next hcons => rw [hcons]; rfl

/-- Blanks in front of a text stay with its first piece. -/
theorem map_trim_split_blank_append {separator : Char} (hseparator : isBlank separator = false)
    (h : Blank before) (cs : List Char) :
    (split separator (before ++ cs)).map trim = (split separator cs).map trim := by
  induction before with
  | nil => rfl
  | cons c before ih =>
    obtain ⟨hc, hbefore⟩ := List.forall_mem_cons.1 h
    have hne : c ≠ separator := by
      rintro rfl
      rw [hc] at hseparator
      cases hseparator
    have hfirst : Blank [c] := List.forall_mem_singleton.2 hc
    obtain ⟨piece, pieces, hpieces⟩ := List.exists_cons_of_ne_nil (split_ne_nil separator (before ++ cs))
    rw [← ih hbefore, List.cons_append, split, if_neg hne, hpieces]
    show trim ([c] ++ piece) :: pieces.map trim = _
    rw [trim_blank_append hfirst]
    rfl

/-! ## Case -/

theorem toNat_toUpper (c : Char) :
    c.toUpper.toNat = if 97 ≤ c.toNat ∧ c.toNat ≤ 122 then c.toNat - 32 else c.toNat := by
  have hcode : ('a'.val ≤ c.val ∧ c.val ≤ 'z'.val) ↔ (97 ≤ c.toNat ∧ c.toNat ≤ 122) := Iff.rfl
  unfold Char.toUpper
  by_cases h : 97 ≤ c.toNat ∧ c.toNat ≤ 122
  · have hval : c.val.toNat = c.toNat := rfl
    have hshift : ('A'.val - 'a'.val).toNat = 2 ^ 32 - 32 := rfl
    rw [dif_pos (hcode.2 h), if_pos h, Char.toNat_mk, UInt32.toNat_add, hval, hshift]
    omega
  · rw [dif_neg (mt hcode.1 h), if_neg h]

theorem toNat_toLower (c : Char) :
    c.toLower.toNat = if 65 ≤ c.toNat ∧ c.toNat ≤ 90 then c.toNat + 32 else c.toNat := by
  have hcode : (c.val ≥ 'A'.val ∧ c.val ≤ 'Z'.val) ↔ (65 ≤ c.toNat ∧ c.toNat ≤ 90) := Iff.rfl
  unfold Char.toLower
  by_cases h : 65 ≤ c.toNat ∧ c.toNat ≤ 90
  · have hval : c.val.toNat = c.toNat := rfl
    have hshift : ('a'.val - 'A'.val).toNat = 32 := rfl
    rw [dif_pos (hcode.2 h), if_pos h, Char.toNat_mk, UInt32.toNat_add, hval, hshift]
    omega
  · rw [dif_neg (mt hcode.1 h), if_neg h]

theorem isAlpha_iff {c : Char} :
    c.isAlpha = true ↔ (65 ≤ c.toNat ∧ c.toNat ≤ 90) ∨ (97 ≤ c.toNat ∧ c.toNat ≤ 122) := by
  unfold Char.isAlpha Char.isUpper Char.isLower
  rw [Bool.or_eq_true, Bool.and_eq_true, decide_eq_true_eq, decide_eq_true_eq, decide_eq_true_eq]
  rfl

/-- Characters that differ in case at most are the same, or letters. -/
theorem eq_or_isAlpha_of_toUpper_eq {c d : Char} (h : d.toUpper = c.toUpper) :
    d = c ∨ (d.isAlpha = true ∧ c.isAlpha = true) := by
  have hcodes := congrArg Char.toNat h
  rw [toNat_toUpper, toNat_toUpper] at hcodes
  rw [isAlpha_iff, isAlpha_iff, ← Char.toNat_inj]
  split_ifs at hcodes <;> omega

theorem toLower_eq_of_toUpper_eq {c d : Char} (h : d.toUpper = c.toUpper) : d.toLower = c.toLower := by
  have hcodes := congrArg Char.toNat h
  rw [toNat_toUpper, toNat_toUpper] at hcodes
  rw [← Char.toNat_inj, toNat_toLower, toNat_toLower]
  split_ifs at hcodes ⊢ <;> omega

theorem isBlank_eq_false_of_isAlpha {c : Char} (h : c.isAlpha = true) : isBlank c = false := by
  rw [isAlpha_iff] at h
  rw [isBlank, List.any_eq_false]
  simp [blankRanges]
  omega

/-- Where two texts differ in case only, a character of the one is a character of the other, up to case. -/
theorem exists_mem_of_upper_eq (h : upper ds = upper cs) {d : Char} (hd : d ∈ ds) :
    ∃ c ∈ cs, d.toUpper = c.toUpper := by
  have hmem : d.toUpper ∈ upper cs := by
    rw [← h]
    exact List.mem_map_of_mem hd
  obtain ⟨c, hc, hupper⟩ := List.mem_map.1 hmem
  exact ⟨c, hc, hupper.symm⟩

/-- A text without letters has one spelling. -/
theorem eq_of_upper_eq (hcs : ∀ c ∈ cs, c.isAlpha = false) (h : upper ds = upper cs) : ds = cs := by
  induction cs generalizing ds with
  | nil => exact List.map_eq_nil_iff.1 h
  | cons c cs ih =>
    obtain ⟨d, ds, rfl, hd, hds⟩ := List.map_eq_cons_iff.1 h
    obtain ⟨hc, hrest⟩ := List.forall_mem_cons.1 hcs
    rcases eq_or_isAlpha_of_toUpper_eq hd with rfl | ⟨-, halpha⟩
    · rw [ih hrest hds]
    · rw [hc] at halpha
      cases halpha

theorem lower_eq_of_upper_eq (h : upper ds = upper cs) : lower ds = lower cs := by
  induction cs generalizing ds with
  | nil => rw [List.map_eq_nil_iff.1 h]
  | cons c cs ih =>
    obtain ⟨d, ds, rfl, hd, hds⟩ := List.map_eq_cons_iff.1 h
    show d.toLower :: lower ds = c.toLower :: lower cs
    rw [toLower_eq_of_toUpper_eq hd, ih hds]

end SearchJoin.Text
