import SearchJoin.Text.Digits
import SearchJoin.Text.Reader

/-!
# Strings of TOML

A string is basic, between double quotes and with escapes, or literal, between single quotes and
without. Either form takes one line, or several between three quotes. A string is written in the
plainest form that can hold it.
-/

namespace SearchJoin.Toml

/-- A space or a tab. -/
def isBlank (c : Char) : Bool := c = ' ' || c = '\t'

/-- The character is no control character, or a tab. -/
def isVisible (c : Char) : Bool := c = '\t' || (c.toNat ≥ 0x20 && c.toNat ≠ 0x7F)

/-- The text without the blanks in front. -/
def skipBlanks (cs : List Char) : List Char := cs.dropWhile isBlank

/-- The text after a line break. -/
def afterBreak? : List Char → Option (List Char)
  | '\n' :: cs => some cs
  | '\r' :: '\n' :: cs => some cs
  | _ => none

namespace Quoted

/-! ## Reading -/

/-- The character that a one-letter escape stands for. -/
def escaped? : Char → Option Char
  | 'b' => some '\x08'
  | 't' => some '\t'
  | 'n' => some '\n'
  | 'f' => some '\x0c'
  | 'r' => some '\r'
  | '"' => some '"'
  | '\\' => some '\\'
  | _ => none

/-- The character whose code point hexadecimal digits denote. -/
def ofCodePoint? (digits : List Char) : Option Char :=
  (Text.inBase? 16 digits).bind fun n => if n.isValidChar then some (Char.ofNat n) else none

/-- Reads what follows the backslash of an escape. -/
def escape? : Text.Reader Char
  | 'u' :: a :: b :: c :: d :: cs => (ofCodePoint? [a, b, c, d]).map fun x => (x, cs)
  | 'U' :: a :: b :: c :: d :: e :: f :: g :: h :: cs =>
    (ofCodePoint? [a, b, c, d, e, f, g, h]).map fun x => (x, cs)
  | c :: cs => (escaped? c).map fun x => (x, cs)
  | [] => none

theorem length_lt_of_escape? {cs rest : List Char} {x : Char} (h : escape? cs = some (x, rest)) :
    rest.length < cs.length := by
  unfold escape? at h
  split at h <;> simp only [Option.map_eq_some_iff, Prod.mk.injEq, reduceCtorEq] at h <;>
    obtain ⟨_, _, _, rfl⟩ := h <;> simp only [List.length_cons] <;> omega

/-- The text without the blanks and line breaks in front. -/
def skipLines : List Char → List Char
  | '\n' :: cs => skipLines cs
  | '\r' :: '\n' :: cs => skipLines cs
  | c :: cs => if isBlank c then skipLines cs else c :: cs
  | [] => []

theorem length_skipLines_le (cs : List Char) : (skipLines cs).length ≤ cs.length := by
  fun_induction skipLines cs <;> grind

/-- The text after a line break that a backslash takes away: the break, which blanks may precede,
and all blanks and breaks after it. -/
def joined? (cs : List Char) : Option (List Char) := (afterBreak? (skipBlanks cs)).map skipLines

theorem length_lt_of_joined? {cs rest : List Char} (h : joined? cs = some rest) :
    rest.length < cs.length := by
  obtain ⟨line, hline, rfl⟩ := Option.map_eq_some_iff.1 h
  have shorter : line.length < (skipBlanks cs).length := by
    unfold afterBreak? at hline
    split at hline <;> grind
  have := length_skipLines_le line
  have : (skipBlanks cs).length ≤ cs.length := (List.dropWhile_suffix isBlank).length_le
  omega

/-- Puts a character in front of what was read. -/
def before (c : Char) (read : List Char × List Char) : List Char × List Char :=
  (c :: read.1, read.2)

/-- Reads a basic string after its opening quote. -/
def basic? (cs : List Char) : Option (List Char × List Char) :=
  match cs with
  | [] => none
  | '"' :: cs => some ([], cs)
  | '\\' :: cs =>
    match h : escape? cs with
    | none => none
    | some (c, rest) =>
      have := length_lt_of_escape? h
      (basic? rest).map (before c)
  | c :: cs => if isVisible c then (basic? cs).map (before c) else none
termination_by cs.length

/-- Reads a literal string after its opening quote. -/
def literal? : Text.Reader (List Char)
  | [] => none
  | '\'' :: cs => some ([], cs)
  | c :: cs => if isVisible c then (literal? cs).map (before c) else none

/-- Reads a basic string of several lines after its opening quotes. Before the closing quotes up to
two more may stand, which belong to the string. -/
def basicLines? (cs : List Char) : Option (List Char × List Char) :=
  match cs with
  | [] => none
  | '"' :: '"' :: '"' :: '"' :: '"' :: cs => some (['"', '"'], cs)
  | '"' :: '"' :: '"' :: '"' :: cs => some (['"'], cs)
  | '"' :: '"' :: '"' :: cs => some ([], cs)
  | '\r' :: '\n' :: cs => (basicLines? cs).map (before '\n')
  | '\\' :: cs =>
    match h : joined? cs with
    | some rest =>
      have := length_lt_of_joined? h
      basicLines? rest
    | none =>
      match h : escape? cs with
      | none => none
      | some (c, rest) =>
        have := length_lt_of_escape? h
        (basicLines? rest).map (before c)
  | c :: cs => if c = '\n' ∨ isVisible c then (basicLines? cs).map (before c) else none
termination_by cs.length

/-- Reads a literal string of several lines after its opening quotes; of the closing quotes up to
two more belong to the string. -/
def literalLines? : Text.Reader (List Char)
  | [] => none
  | '\'' :: '\'' :: '\'' :: '\'' :: '\'' :: cs => some (['\'', '\''], cs)
  | '\'' :: '\'' :: '\'' :: '\'' :: cs => some (['\''], cs)
  | '\'' :: '\'' :: '\'' :: cs => some ([], cs)
  | '\r' :: '\n' :: cs => (literalLines? cs).map (before '\n')
  | c :: cs => if c = '\n' ∨ isVisible c then (literalLines? cs).map (before c) else none

/-- Reads a string of one line. -/
def line? : Text.Reader String
  | '"' :: cs => (basic? cs).map fun read => (.ofList read.1, read.2)
  | '\'' :: cs => (literal? cs).map fun read => (.ofList read.1, read.2)
  | _ => none

/-- Reads a string of either form. A line break right after three opening quotes does not count. -/
def read? : Text.Reader String
  | '"' :: '"' :: '"' :: cs =>
    (basicLines? ((afterBreak? cs).getD cs)).map fun read => (.ofList read.1, read.2)
  | '\'' :: '\'' :: '\'' :: cs =>
    (literalLines? ((afterBreak? cs).getD cs)).map fun read => (.ofList read.1, read.2)
  | cs => line? cs

/-! ## Writing -/

/-- The length of the longest run of a character. -/
def longestRun (mark : Char) : Nat → List Char → Nat
  | run, [] => run
  | run, c :: cs =>
    if c = mark then longestRun mark (run + 1) cs else max run (longestRun mark 0 cs)

/-- The character needs an escape in every form: it is a control character, and neither a tab nor a
line break. -/
def needsEscape (c : Char) : Bool := !isVisible c && c ≠ '\n'

/-- The four digits of a code point below `10000`, in hexadecimal. -/
def fourDigits (n : Nat) : List Char :=
  [n / 4096, n / 256 % 16, n / 16 % 16, n % 16].map Text.upperHexDigit

/-- A basic string, whose quotes are escaped where more than `quotes` stand together, and whose
line breaks are escaped unless they are kept. -/
def escape (quotes : Nat) (keepBreaks : Bool) : Nat → List Char → List Char
  | _, [] => []
  | run, c :: cs =>
    let rest := escape quotes keepBreaks 0 cs
    if c = '"' then
      if run < quotes then '"' :: escape quotes keepBreaks (run + 1) cs else '\\' :: '"' :: rest
    else if c = '\\' then '\\' :: '\\' :: rest
    else if c = '\t' then '\\' :: 't' :: rest
    else if c = '\n' then if keepBreaks then '\n' :: rest else '\\' :: 'n' :: rest
    else if isVisible c then c :: rest
    else if c = '\x08' then '\\' :: 'b' :: rest
    else if c = '\x0c' then '\\' :: 'f' :: rest
    else if c = '\r' then '\\' :: 'r' :: rest
    else '\\' :: 'u' :: (fourDigits c.toNat ++ rest)

/-- A basic string of one line. -/
def basic (cs : List Char) : List Char := ['"'] ++ escape 0 false 0 cs ++ ['"']

/-- The quotes around a string of several lines, with a line break after the opening ones if the
string has one. -/
def lines (quote : Char) (hasBreak : Bool) (body : List Char) : List Char :=
  let quotes := [quote, quote, quote]
  quotes ++ (if hasBreak then ['\n'] else []) ++ body ++ quotes

/-- Writes a string in the first form that suits it: basic on one line, literal on one line, basic
on several lines, literal on several lines, each without an escape other than that of a tab. If none
suits, it is basic with escapes, on several lines when it has a line break. -/
def write (cs : List Char) : List Char :=
  let hasBreak := cs.contains '\n'
  let isPlain := !cs.any needsEscape
  let isUnescaped := isPlain && !cs.contains '\\'
  let singles := longestRun '\'' 0 cs
  let doubles := longestRun '"' 0 cs
  if isUnescaped && doubles == 0 && !hasBreak then basic cs
  else if isPlain && singles == 0 && !hasBreak then ['\''] ++ cs ++ ['\'']
  else if isUnescaped && doubles ≤ 2 then lines '"' hasBreak (escape 2 true 0 cs)
  else if isPlain && singles ≤ 2 then lines '\'' hasBreak cs
  else if hasBreak then lines '"' true (escape 2 true 0 cs)
  else basic cs

end Quoted

end SearchJoin.Toml
