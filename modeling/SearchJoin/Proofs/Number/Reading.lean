import SearchJoin.Number.Text
import SearchJoin.Proofs.Number.Nearest
import SearchJoin.Proofs.Text.Digits

/-!
# The text of numbers

A number is read back from its text. The text is a sign, digits, and for a binary64 number a fraction or an
exponent; which of the layouts is chosen makes no difference for the value that is read.

Main statement: `Number.read?_text`.
-/

namespace SearchJoin.Number

variable {negative : Bool} {digits whole fraction exponent rest : List Char} {l : Literal}

/-! ## Literals -/

/-- Digits that may stand before a point. -/
structure IsWhole (digits : List Char) : Prop where
  ne_nil : digits ≠ []
  isDigit : ∀ c ∈ digits, c.isDigit = true
  lead : 1 < digits.length → digits.head? ≠ some '0'

/-- A minus sign, where the number is negative. -/
def sign (negative : Bool) : List Char := if negative then ['-'] else []

/-- The digits behind a point, with the point. -/
def pointed : List Char → List Char
  | [] => []
  | c :: cs => '.' :: c :: cs

/-- An exponent, with its mark. -/
def marked : List Char → List Char
  | [] => []
  | c :: cs => 'e' :: c :: cs

/-- The value of an exponent that may be missing. -/
def exponentOf? : List Char → Option Int
  | [] => some 0
  | c :: cs => exponent? (c :: cs)

/-- The text of a literal whose exponent is written so. -/
def Literal.text (l : Literal) (exponent : List Char) : List Char :=
  sign l.negative ++ (l.whole ++ (pointed l.fraction ++ marked exponent))

/-- The parts of a literal are well formed and the exponent is written so. -/
structure Literal.Spelled (l : Literal) (exponent : List Char) : Prop where
  whole : IsWhole l.whole
  fraction : ∀ c ∈ l.fraction, c.isDigit = true
  power : exponentOf? exponent = some l.exponent
  isInteger : l.isInteger = decide (l.fraction = [] ∧ exponent = [])

theorem takeWhile_isDigit (hdigits : ∀ c ∈ digits, c.isDigit = true)
    (hrest : ∀ c ∈ rest.head?, c.isDigit = false) :
    (digits ++ rest).takeWhile Char.isDigit = digits ∧ (digits ++ rest).dropWhile Char.isDigit = rest := by
  rw [List.takeWhile_append_of_pos hdigits, List.dropWhile_append_of_pos hdigits]
  cases rest with
  | nil => exact ⟨List.append_nil digits, rfl⟩
  | cons c rest =>
    have hc : ¬ c.isDigit = true := by
      rw [hrest c rfl]
      exact Bool.false_ne_true
    rw [List.takeWhile_cons_of_neg hc, List.dropWhile_cons_of_neg hc, List.append_nil]
    exact ⟨rfl, rfl⟩

/-- What is read behind the digits before a point. -/
def Literal.behind? (negative : Bool) (whole : List Char) : List Char → Option Literal
  | [] => some ⟨negative, whole, [], 0, true⟩
  | '.' :: rest =>
    let fraction := rest.takeWhile Char.isDigit
    if fraction = [] then none
    else match rest.dropWhile Char.isDigit with
      | [] => some ⟨negative, whole, fraction, 0, false⟩
      | e :: rest =>
        if e = 'e' ∨ e = 'E' then
          (exponent? rest).map fun exponent => ⟨negative, whole, fraction, exponent, false⟩
        else none
  | e :: rest =>
    if e = 'e' ∨ e = 'E' then
      (exponent? rest).map fun exponent => ⟨negative, whole, [], exponent, false⟩
    else none

/-- What is read behind a sign. -/
def Literal.unsigned? (negative : Bool) (cs : List Char) : Option Literal :=
  let whole := cs.takeWhile Char.isDigit
  let rest := cs.dropWhile Char.isDigit
  if whole = [] ∨ (whole.length > 1 ∧ whole.head? = some '0') then none
  else Literal.behind? negative whole rest

theorem Literal.read?_minus (cs : List Char) : Literal.read? ('-' :: cs) = Literal.unsigned? true cs := rfl

theorem Literal.read?_of_ne_minus {c : Char} (hc : c ≠ '-') (cs : List Char) :
    Literal.read? (c :: cs) = Literal.unsigned? false (c :: cs) := by
  unfold Literal.read?
  split
  next negative cs' heq =>
    split at heq
    · next hminus => exact absurd (List.cons.inj hminus).1 hc
    · cases heq
      rfl

theorem Literal.unsigned?_whole (hwhole : IsWhole whole) (hrest : ∀ c ∈ rest.head?, c.isDigit = false) :
    Literal.unsigned? negative (whole ++ rest) = Literal.behind? negative whole rest := by
  obtain ⟨htake, hdrop⟩ := takeWhile_isDigit hwhole.isDigit hrest
  have hvalid : ¬ (whole = [] ∨ whole.length > 1 ∧ whole.head? = some '0') := by
    rintro (hnil | ⟨hlength, hhead⟩)
    · exact hwhole.ne_nil hnil
    · exact hwhole.lead hlength hhead
  unfold Literal.unsigned?
  rw [htake, hdrop]
  exact if_neg hvalid

theorem Literal.read?_whole (hwhole : IsWhole whole) (hrest : ∀ c ∈ rest.head?, c.isDigit = false) :
    Literal.read? (sign negative ++ (whole ++ rest)) = Literal.behind? negative whole rest := by
  rw [← Literal.unsigned?_whole hwhole hrest]
  cases negative with
  | true => exact Literal.read?_minus _
  | false =>
    obtain ⟨c, digits, rfl⟩ := List.exists_cons_of_ne_nil hwhole.ne_nil
    refine Literal.read?_of_ne_minus ?_ _
    rintro rfl
    exact absurd (hwhole.isDigit '-' List.mem_cons_self) (by decide)

theorem head?_pointed_marked (fraction exponent : List Char) :
    ∀ c ∈ (pointed fraction ++ marked exponent).head?, c.isDigit = false := by
  intro c hc
  cases fraction with
  | cons =>
    cases hc
    rfl
  | nil =>
    cases exponent with
    | nil => cases hc
    | cons =>
      cases hc
      rfl

theorem head?_marked (exponent : List Char) : ∀ c ∈ (marked exponent).head?, c.isDigit = false :=
  head?_pointed_marked [] exponent

/-- A literal is read back from its text. -/
theorem Literal.read?_text (h : l.Spelled exponent) : Literal.read? (l.text exponent) = some l := by
  obtain ⟨negative, whole, fraction, power, isInteger⟩ := l
  obtain ⟨hwhole, hfraction, hpower, hinteger⟩ := h
  dsimp only at hwhole hfraction hpower hinteger
  rw [Literal.text, Literal.read?_whole hwhole (head?_pointed_marked _ _), hinteger]
  dsimp only
  cases fraction with
  | nil =>
    cases exponent with
    | nil =>
      cases hpower
      rfl
    | cons c exponent =>
      have hpower : exponent? (c :: exponent) = some power := hpower
      show (exponent? (c :: exponent)).map (fun exponent => Literal.mk negative whole [] exponent false) = _
      rw [hpower]
      rfl
  | cons d fraction =>
    obtain ⟨htake, hdrop⟩ := takeWhile_isDigit hfraction (head?_marked exponent)
    show Literal.behind? negative whole ('.' :: (d :: fraction ++ marked exponent)) = _
    rw [Literal.behind?, htake, hdrop, if_neg (List.cons_ne_nil _ _)]
    cases exponent with
    | nil =>
      cases hpower
      rfl
    | cons c exponent =>
      have hpower : exponent? (c :: exponent) = some power := hpower
      show (exponent? (c :: exponent)).map
        (fun exponent => Literal.mk negative whole (d :: fraction) exponent false) = _
      rw [hpower]
      rfl

/-! ## What literals denote -/

/-- The number that a literal denotes. -/
def Literal.number? (l : Literal) : Option Number :=
  match l.integer?.bind WordInt.ofInt? with
  | some i => some (.int i)
  | none => l.decimal.toBinary64?.map .float

theorem read?_literal (h : l.Spelled exponent) : read? (l.text exponent) = l.number? := by
  rw [read?, Literal.read?_text h]
  rfl

theorem WordInt.ofInt?_value (i : WordInt) : WordInt.ofInt? i.value = some i := dif_pos i.inRange

theorem isWhole_decimalDigits (n : Nat) : IsWhole (Text.decimalDigits n) where
  ne_nil := Text.decimalDigits_ne_nil n
  isDigit := fun _ hc => Text.isDigit_of_mem_decimalDigits hc
  lead := Text.head?_decimalDigits_of_length

/-- A literal without a point and an exponent denotes an integer. -/
theorem number?_integer (i : WordInt) {n : Nat} (hvalue : i.value = if negative then -(n : Int) else n)
    (hzero : negative = true → n ≠ 0) :
    Literal.number? ⟨negative, Text.decimalDigits n, [], 0, true⟩ = some (.int i) := by
  have hinteger : Literal.integer? ⟨negative, Text.decimalDigits n, [], 0, true⟩ = some i.value := by
    unfold Literal.integer?
    dsimp only
    rw [Text.ofDecimalDigits_decimalDigits, hvalue]
    refine if_neg ?_
    rintro (h | ⟨hnegative, hn⟩)
    · cases h
    · exact hzero hnegative hn
  unfold Literal.number?
  rw [hinteger, Option.bind_some, WordInt.ofInt?_value]

/-- A literal with a point or an exponent denotes a binary64 number. -/
theorem number?_decimal (hinteger : l.isInteger = false) : l.number? = l.decimal.toBinary64?.map .float := by
  have hnone : l.integer? = none := by
    unfold Literal.integer?
    rw [hinteger]
    rfl
  rw [Literal.number?, hnone]
  rfl

theorem exists_literal_int (i : WordInt) : ∃ l, Literal.Spelled l [] ∧ text (.int i) = l.text [] ∧
    l.number? = some (.int i) := by
  have hspelled : ∀ (negative : Bool) (n : Nat),
      Literal.Spelled ⟨negative, Text.decimalDigits n, [], 0, true⟩ [] :=
    fun _ n => ⟨isWhole_decimalDigits n, List.forall_mem_nil _, rfl, rfl⟩
  obtain ⟨value, inRange⟩ := i
  cases value with
  | ofNat n =>
    refine ⟨_, hspelled false n, ?_, number?_integer _ rfl nofun⟩
    show Text.decimalDigits n = Text.decimalDigits n ++ []
    rw [List.append_nil]
  | negSucc n =>
    refine ⟨_, hspelled true (n + 1), ?_, number?_integer _ rfl fun _ => Nat.succ_ne_zero n⟩
    show '-' :: Text.decimalDigits (n + 1) = '-' :: (Text.decimalDigits (n + 1) ++ [])
    rw [List.append_nil]

/-! ## Layouts -/

theorem pointed_of_ne_nil (h : digits ≠ []) : pointed digits = '.' :: digits := by
  obtain ⟨c, cs, rfl⟩ := List.exists_cons_of_ne_nil h
  rfl

theorem isDigit_of_mem_replicate {count : Nat} : ∀ c ∈ List.replicate count '0', c.isDigit = true := by
  intro c hc
  rw [List.eq_of_mem_replicate hc]
  rfl

theorem IsWhole.take (h : IsWhole digits) (count : Nat) : IsWhole (digits.take (count + 1)) where
  ne_nil := by
    obtain ⟨c, cs, rfl⟩ := List.exists_cons_of_ne_nil h.ne_nil
    exact List.cons_ne_nil _ _
  isDigit := fun c hc => h.isDigit c (List.mem_of_mem_take hc)
  lead := by
    intro hlength
    rw [List.head?_take]
    refine h.lead ?_
    rw [List.length_take] at hlength
    omega

theorem isWhole_append_zeros {n : Nat} (hn : 0 < n) (count : Nat) :
    IsWhole (Text.decimalDigits n ++ List.replicate count '0') where
  ne_nil := List.append_ne_nil_of_left_ne_nil (Text.decimalDigits_ne_nil n) _
  isDigit := List.forall_mem_append.2 ⟨(isWhole_decimalDigits n).isDigit, isDigit_of_mem_replicate⟩
  lead := by
    intro _
    have hhead := Text.head?_decimalDigits hn
    obtain ⟨c, cs, hcons⟩ := List.exists_cons_of_ne_nil (Text.decimalDigits_ne_nil n)
    rw [hcons] at hhead ⊢
    exact hhead

/-- Zeros in front do not count. -/
theorem ofDecimalDigits_zeros_append (count : Nat) (digits : List Char) :
    Text.ofDecimalDigits (List.replicate count '0' ++ digits) = Text.ofDecimalDigits digits := by
  rw [Text.ofDecimalDigits_append, Text.ofDecimalDigits_replicate_zero, Nat.mul_zero, Nat.zero_add]

/-- Zeros behind count as tens. -/
theorem ofDecimalDigits_append_zeros (digits : List Char) (count : Nat) :
    Text.ofDecimalDigits (digits ++ List.replicate count '0') = Text.ofDecimalDigits digits * 10 ^ count := by
  rw [Text.ofDecimalDigits_append, Text.ofDecimalDigits_replicate_zero, List.length_replicate, Nat.add_zero,
    Nat.mul_comm]

section Layouts

variable {d : Decimal} (hne : d.digits ≠ 0)

/-- A literal with a fraction, or else with an exponent, that is read as a decimal is read. -/
structure Literal.Denotes (l : Literal) (exponent : List Char) (d : Decimal) : Prop where
  spelled : l.Spelled exponent
  isInteger : l.isInteger = false
  value : l.decimal.toBinary64? = d.toBinary64?

/-- The digits before and behind the point are those of the decimal, and zeros. -/
theorem denotes_of_append {power : Int} (zeros : Nat) (hwhole : IsWhole whole)
    (hfraction : ∀ c ∈ fraction, c.isDigit = true) (hpower : exponentOf? exponent = some power)
    (hsome : ¬ (fraction = [] ∧ exponent = []))
    (hdigits : Text.ofDecimalDigits (whole ++ fraction) = d.digits * 10 ^ zeros)
    (hexponent : power - fraction.length = d.exponent - zeros) :
    Literal.Denotes ⟨d.negative, whole, fraction, power, false⟩ exponent d where
  spelled := ⟨hwhole, hfraction, hpower, (decide_eq_false hsome).symm⟩
  isInteger := rfl
  value := by
    rw [Literal.decimal, hdigits, hexponent]
    exact Decimal.toBinary64?_mul_pow d.negative d.digits d.exponent zeros

include hne in
theorem exists_plain {lead : Int} (hlead : lead = d.exponent + (Text.decimalDigits d.digits).length - 1) :
    ∃ l, Literal.Denotes l [] d ∧
      sign d.negative ++ Decimal.plainText (Text.decimalDigits d.digits) lead = l.text [] := by
  have hdigits := isWhole_decimalDigits d.digits
  have hzeros := isWhole_append_zeros (Nat.pos_of_ne_zero hne)
  have hvalue := Text.ofDecimalDigits_decimalDigits d.digits
  generalize Text.decimalDigits d.digits = digits at *
  cases lead with
  | ofNat n =>
    by_cases hlength : digits.length ≤ n + 1
    · -- All digits stand before the point, with zeros behind them.
      have htext : Decimal.plainText digits (.ofNat n) =
          digits ++ List.replicate (n + 1 - digits.length) '0' ++ ['.', '0'] := by
        rw [Decimal.plainText, if_pos hlength]
      rw [htext]
      generalize hcount : n + 1 - digits.length = count
      refine ⟨⟨d.negative, digits ++ List.replicate count '0', ['0'], 0, false⟩, ?_, ?_⟩
      · refine denotes_of_append (count + 1) (hzeros count) (List.forall_mem_singleton.2 rfl) rfl (by simp) ?_ ?_
        · rw [List.append_assoc, ← List.replicate_succ', ofDecimalDigits_append_zeros, hvalue]
        · have hlead : (n : Int) = d.exponent + digits.length - 1 := hlead
          rw [List.length_singleton]
          omega
      · simp [Literal.text, pointed, marked]
    · -- The point stands between the digits.
      have hbehind : digits.drop (n + 1) ≠ [] := by
        intro hnil
        exact hlength (List.drop_eq_nil_iff.1 hnil)
      refine ⟨⟨d.negative, digits.take (n + 1), digits.drop (n + 1), 0, false⟩, ?_, ?_⟩
      · refine denotes_of_append 0 (hdigits.take n) ?_ rfl (fun h => hbehind h.1) ?_ ?_
        · exact fun c hc => hdigits.isDigit c (List.mem_of_mem_drop hc)
        · rw [List.take_append_drop, hvalue, Nat.pow_zero, Nat.mul_one]
        · rw [List.length_drop]
          have hlead : (n : Int) = d.exponent + digits.length - 1 := hlead
          omega
      · rw [Literal.text, pointed_of_ne_nil hbehind, Decimal.plainText, if_neg hlength]
        simp [marked]
  | negSucc n =>
    -- Zeros stand between the point and the digits.
    refine ⟨⟨d.negative, ['0'], List.replicate n '0' ++ digits, 0, false⟩, ?_, ?_⟩
    · refine denotes_of_append 0 (isWhole_decimalDigits 0) ?_ rfl ?_ ?_ ?_
      · exact List.forall_mem_append.2 ⟨isDigit_of_mem_replicate, hdigits.isDigit⟩
      · rintro ⟨hnil, -⟩
        exact hdigits.ne_nil (List.append_eq_nil_iff.1 hnil).2
      · show Text.ofDecimalDigits (List.replicate (n + 1) '0' ++ digits) = d.digits * 10 ^ 0
        rw [ofDecimalDigits_zeros_append, hvalue, Nat.pow_zero, Nat.mul_one]
      · rw [List.length_append, List.length_replicate]
        have hlead : Int.negSucc n = d.exponent + digits.length - 1 := hlead
        omega
    · rw [Literal.text, pointed_of_ne_nil (List.append_ne_nil_of_right_ne_nil _ hdigits.ne_nil), Decimal.plainText]
      simp [marked]

theorem exists_scientific {lead : Int} (hlead : lead = d.exponent + (Text.decimalDigits d.digits).length - 1) :
    ∃ l exponent, Literal.Denotes l exponent d ∧
      sign d.negative ++ Decimal.scientificText layout (Text.decimalDigits d.digits) lead = l.text exponent := by
  have hdigits := isWhole_decimalDigits d.digits
  have hvalue := Text.ofDecimalDigits_decimalDigits d.digits
  generalize Text.decimalDigits d.digits = digits at *
  obtain ⟨exponent, hne, hpower, htext⟩ : ∃ exponent, exponent ≠ [] ∧ exponentOf? exponent = some lead ∧
      Decimal.scientificText layout digits lead = digits.take 1 ++ (pointed (digits.drop 1) ++ marked exponent) := by
    have hfraction : (if digits.length ≤ 1 then [] else '.' :: digits.drop 1) = pointed (digits.drop 1) := by
      by_cases hlength : digits.length ≤ 1
      · rw [if_pos hlength, List.drop_eq_nil_of_le hlength]
        rfl
      · rw [if_neg hlength, pointed_of_ne_nil (mt List.drop_eq_nil_iff.1 hlength)]
    unfold Decimal.scientificText
    rw [hfraction]
    cases lead with
    | ofNat n =>
      refine ⟨'+' :: Text.decimalDigits n, List.cons_ne_nil _ _, ?_, by simp [layout, marked]⟩
      show (Text.natural? (Text.decimalDigits n)).map (fun n => (n : Int)) = _
      rw [Text.natural?_decimalDigits]
      rfl
    | negSucc n =>
      refine ⟨'-' :: Text.decimalDigits (n + 1), List.cons_ne_nil _ _, ?_, by simp [marked]⟩
      show (Text.natural? (Text.decimalDigits (n + 1))).map (fun n => -(n : Int)) = _
      rw [Text.natural?_decimalDigits]
      rfl
  refine ⟨⟨d.negative, digits.take 1, digits.drop 1, lead, false⟩, exponent, ?_, by rw [htext, Literal.text]⟩
  refine denotes_of_append 0 (hdigits.take 0) ?_ hpower (fun h => hne h.2) ?_ ?_
  · exact fun c hc => hdigits.isDigit c (List.mem_of_mem_drop hc)
  · rw [List.take_append_drop, hvalue, Nat.pow_zero, Nat.mul_one]
  · have hpos : 0 < digits.length := List.length_pos_iff.2 hdigits.ne_nil
    rw [List.length_drop]
    omega

/-- However a decimal is laid out, it is read as it is. -/
theorem exists_literal_decimal (d : Decimal) :
    ∃ l exponent, Literal.Denotes l exponent d ∧ d.text layout = l.text exponent := by
  have hsign : ∀ body, (if d.negative then '-' :: body else body) = sign d.negative ++ body := by
    intro body
    unfold sign
    cases d.negative <;> rfl
  unfold Decimal.text
  dsimp only
  rw [hsign]
  by_cases hne : d.digits = 0
  · -- The exponent of zero does not count.
    have hplain : layout.leastPlain ≤ (0 : Int) ∧ (0 : Int) ≤ layout.greatestPlain := by decide
    have hvalue : (Literal.decimal ⟨d.negative, ['0'], ['0'], 0, false⟩).digits = 0 := rfl
    rw [if_pos hne, if_pos hplain, hne, Text.decimalDigits_zero]
    refine ⟨⟨d.negative, ['0'], ['0'], 0, false⟩, [], ⟨⟨isWhole_decimalDigits 0, ?_, rfl, rfl⟩, rfl, ?_⟩, rfl⟩
    · exact List.forall_mem_singleton.2 rfl
    · rw [Decimal.toBinary64?_of_zero hvalue, Decimal.toBinary64?_of_zero hne]
      rfl
  rw [if_neg hne]
  split
  · obtain ⟨l, hdenotes, htext⟩ := exists_plain hne rfl
    exact ⟨l, [], hdenotes, htext⟩
  · exact exists_scientific rfl

end Layouts

theorem exists_literal (n : Number) : ∃ l exponent, Literal.Spelled l exponent ∧ n.text = l.text exponent ∧
    l.number? = some n := by
  cases n with
  | int i =>
    obtain ⟨l, hspelled, htext, hnumber⟩ := exists_literal_int i
    exact ⟨l, [], hspelled, htext, hnumber⟩
  | float x =>
    obtain ⟨l, exponent, hdenotes, htext⟩ := exists_literal_decimal x.shortest
    refine ⟨l, exponent, hdenotes.spelled, htext, ?_⟩
    rw [number?_decimal hdenotes.isInteger, hdenotes.value, x.toBinary64?_shortest]
    rfl

/-- A number is read back from its text. -/
theorem read?_text (n : Number) : read? n.text = some n := by
  obtain ⟨l, exponent, hspelled, htext, hnumber⟩ := n.exists_literal
  rw [htext, read?_literal hspelled, hnumber]

end SearchJoin.Number
