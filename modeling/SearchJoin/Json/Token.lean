import SearchJoin.Json.Basic
import SearchJoin.Number.Text

/-!
# Tokens of a JSON text

`Token.scan?` cuts a text into tokens. It reads one character at a time; `Reading` is what has been
read of a token that is not finished yet. Words and numbers end where a character follows that
cannot be part of them, so they are judged only then.
-/

namespace SearchJoin.Json

/-- A token of a JSON text. -/
inductive Token where
  /-- `[`. -/
  | openArr
  /-- `]`. -/
  | closeArr
  /-- An opening brace. -/
  | openObj
  /-- A closing brace. -/
  | closeObj
  /-- `,`. -/
  | comma
  /-- `:`. -/
  | colon
  /-- `null`, `true` or `false`. -/
  | word (value : Json)
  /-- A number. -/
  | num (value : Number)
  /-- A string. -/
  | str (value : String)

/-- The part of a token that has been read; characters stand last first. -/
inductive Reading where
  /-- Between two tokens. -/
  | blank
  /-- Inside a word. -/
  | word (read : List Char)
  /-- Inside a number. -/
  | number (read : List Char)
  /-- Inside a string. -/
  | string (read : List Char)
  /-- After a backslash in a string. -/
  | escape (read : List Char)
  /-- Inside the four hexadecimal digits of an escape, of which some are missing. A high surrogate
  that came before is kept. -/
  | hex (read : List Char) (high : Option Nat) (unit missing : Nat)
  /-- After a high surrogate, which needs a low one: a backslash has to follow. -/
  | lowEscape (read : List Char) (high : Nat)
  /-- After a high surrogate and a backslash: a `u` has to follow. -/
  | lowMark (read : List Char) (high : Nat)

namespace Token

/-- Spaces between tokens. -/
def isBlank (c : Char) : Bool := c = ' ' || c = '\n' || c = '\t' || c = '\r'

/-- Characters that a number may hold. -/
def isNumberChar (c : Char) : Bool :=
  c.isDigit || c = '-' || c = '+' || c = '.' || c = 'e' || c = 'E'

/-- The character that a one-letter escape stands for. -/
def escaped? : Char → Option Char
  | '"' => some '"'
  | '\\' => some '\\'
  | '/' => some '/'
  | 'b' => some '\x08'
  | 'f' => some '\x0c'
  | 'n' => some '\n'
  | 'r' => some '\r'
  | 't' => some '\t'
  | _ => none

/-- What follows the last digit of an escape that names a code unit: a character, or the second
half of a surrogate pair. -/
def codeUnit? (read : List Char) : Option Nat → Nat → Option Reading
  | some high, unit =>
    if 0xDC00 ≤ unit ∧ unit ≤ 0xDFFF then
      some (.string (Char.ofNat (0x10000 + (high - 0xD800) * 0x400 + (unit - 0xDC00)) :: read))
    else none
  | none, unit =>
    if 0xD800 ≤ unit ∧ unit ≤ 0xDBFF then some (.lowEscape read unit)
    else if 0xDC00 ≤ unit ∧ unit ≤ 0xDFFF then none
    else some (.string (Char.ofNat unit :: read))

/-- The word that has been read. -/
def word? (read : List Char) : Option Token :=
  match read.reverse with
  | ['n', 'u', 'l', 'l'] => some (.word .null)
  | ['t', 'r', 'u', 'e'] => some (.word (.bool true))
  | ['f', 'a', 'l', 's', 'e'] => some (.word (.bool false))
  | _ => none

/-- The number that has been read. -/
def number? (read : List Char) : Option Token := (Number.read? read.reverse).map .num

/-- The first character of a token, or a blank: the token if it is complete, and what is being read
else. -/
def start? : Char → Option (Reading × List Token)
  | '[' => some (.blank, [.openArr])
  | ']' => some (.blank, [.closeArr])
  | '\x7b' => some (.blank, [.openObj])
  | '\x7d' => some (.blank, [.closeObj])
  | ',' => some (.blank, [.comma])
  | ':' => some (.blank, [.colon])
  | '"' => some (.string [], [])
  | c =>
    if isBlank c then some (.blank, [])
    else if c.isLower then some (.word [c], [])
    else if isNumberChar c then some (.number [c], [])
    else none

/-- Reads one character. -/
def step? : Reading → Char → Option (Reading × List Token)
  | .blank, c => start? c
  | .word read, c =>
    if c.isLower then some (.word (c :: read), [])
    else (word? read).bind fun token => (start? c).map fun (next, tokens) => (next, token :: tokens)
  | .number read, c =>
    if isNumberChar c then some (.number (c :: read), [])
    else
      (number? read).bind fun token => (start? c).map fun (next, tokens) => (next, token :: tokens)
  | .string read, c =>
    if c = '"' then some (.blank, [.str (String.ofList read.reverse)])
    else if c = '\\' then some (.escape read, [])
    else if c.toNat < 0x20 then none
    else some (.string (c :: read), [])
  | .escape read, c =>
    if c = 'u' then some (.hex read none 0 4, [])
    else (escaped? c).map fun d => (.string (d :: read), [])
  | .hex read high unit missing, c =>
    (Text.hexValue? c).bind fun digit =>
      if missing ≤ 1 then (codeUnit? read high (16 * unit + digit)).map fun next => (next, [])
      else some (.hex read high (16 * unit + digit) (missing - 1), [])
  | .lowEscape read high, c => if c = '\\' then some (.lowMark read high, []) else none
  | .lowMark read high, c => if c = 'u' then some (.hex read (some high) 0 4, []) else none

/-- The tokens that the end of the text completes. -/
def finish? : Reading → Option (List Token)
  | .blank => some []
  | .word read => (word? read).map fun token => [token]
  | .number read => (number? read).map fun token => [token]
  | _ => none

/-- The tokens of the text that follows what has been read. -/
def scanFrom? (state : Reading) : List Char → Option (List Token)
  | [] => finish? state
  | c :: cs =>
    (step? state c).bind fun (next, tokens) => (scanFrom? next cs).map fun rest => tokens ++ rest

/-- The tokens of a text. -/
def scan? (cs : List Char) : Option (List Token) := scanFrom? .blank cs

end Token

end SearchJoin.Json
