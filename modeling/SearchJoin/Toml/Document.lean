import SearchJoin.Toml.Node
import SearchJoin.Toml.Quoted
import SearchJoin.Toml.Scalar

/-!
# Documents of TOML

A document is a sequence of lines. A line defines a value under a dotted key, or is a header that
says for which table the values below it are meant. Arrays and inline tables may stand inside each
other less than 80 deep, and a key has less than 80 parts.
-/

namespace SearchJoin.Toml

/-! ## Keys and values -/

/-- Characters of a part of a key that needs no quotes. -/
def isBareKeyChar (c : Char) : Bool := c.isAlphanum || c = '_' || c = '-'

/-- Reads a part of a key. -/
def simpleKey? (cs : List Char) : Option (String × List Char) :=
  match cs.takeWhile isBareKeyChar with
  | [] => Quoted.line? cs
  | bare => some (.ofList bare, cs.dropWhile isBareKeyChar)

/-- Reads a dotted key; blanks may stand around its parts. -/
def key? (cs : List Char) : Option (List String × List Char) := do
  let part (cs : List Char) : Option (String × List Char) :=
    (simpleKey? (skipBlanks cs)).map fun read => (read.1, skipBlanks read.2)
  let (path, rest) ← Text.separated '.' part cs
  guard (path.length < 80)
  return (path, rest)

/-- Reads a key and its value. -/
def pair? (value : Text.Reader Value) (cs : List Char) :
    Option ((List String × Value) × List Char) := do
  let (path, rest) ← key? cs
  let (x, rest) ← value (skipBlanks (← Text.skip? '=' rest))
  return ((path, x), skipBlanks rest)

/-- The text without the blanks, line breaks and comments in front. -/
def skipComments (inComment : Bool) : List Char → List Char
  | [] => []
  | '\n' :: cs => skipComments false cs
  | '\r' :: '\n' :: cs => skipComments false cs
  | c :: cs =>
    if (inComment && isVisible c) || isBlank c then skipComments inComment cs
    else if c = '#' then skipComments true cs
    else c :: cs

/-- Reads the items of an array after its opening bracket; a comma may stand after the last one. -/
def items? (item : Text.Reader Value) (cs : List Char) : Option (List Value × List Char) :=
  match skipComments false cs with
  | ']' :: rest => some ([], rest)
  | start => do
    let (x, rest) ← item start
    match skipComments false rest with
    | ']' :: rest => return ([x], rest)
    | ',' :: rest =>
      if _shorter : rest.length < cs.length then
        let (xs, rest) ← items? item rest
        return (x :: xs, rest)
      else none
    | _ => none
termination_by cs.length

/-- The table of values under dotted keys. -/
def inlineTable? (pairs : List (List String × Value)) : Option Value :=
  (pairs.foldlM (fun entries pair => Entries.define pair.1 pair.2 entries) []).map fun entries =>
    .table (Entries.table entries)

/-- Reads a value, in which arrays and inline tables stand inside each other to a depth at most. -/
def value? : Nat → Text.Reader Value
  | 0 => fun cs => match cs with
    | '"' :: _ => (Quoted.read? cs).map fun read => (.string read.1, read.2)
    | '\'' :: _ => (Quoted.read? cs).map fun read => (.string read.1, read.2)
    | _ => Scalar.read? cs
  | depth + 1 => fun cs => match cs with
    | '[' :: cs => (items? (value? depth) cs).map fun read => (.array read.1, read.2)
    | '\x7b' :: cs =>
      match skipBlanks cs with
      | '\x7d' :: rest => some (.table [], rest)
      | start => do
        let (pairs, rest) ← Text.separated ',' (pair? (value? depth)) start
        return (← inlineTable? pairs, ← Text.skip? '\x7d' rest)
    | _ => value? 0 cs

/-! ## Lines -/

/-- What a line says. -/
inductive Line where
  /-- Nothing. -/
  | blank
  /-- A value under a dotted key. -/
  | entry (path : List String) (value : Value)
  /-- The table under a dotted key, for the values below. -/
  | table (path : List String)
  /-- A new table in the array under a dotted key, for the values below. -/
  | element (path : List String)

/-- The text after the end of a line, which blanks and a comment may precede. -/
def afterLine? (cs : List Char) : Option (List Char) :=
  let rest := match skipBlanks cs with
    | '#' :: cs => cs.dropWhile isVisible
    | cs => cs
  if rest = [] then some [] else afterBreak? rest

/-- Reads what stands on a line. -/
def Line.content? (cs : List Char) : Option (Line × List Char) :=
  match skipBlanks cs with
  | '[' :: '[' :: cs => do
    let (path, rest) ← key? cs
    return (.element path, ← Text.skip? ']' (← Text.skip? ']' rest))
  | '[' :: cs => do
    let (path, rest) ← key? cs
    return (.table path, ← Text.skip? ']' rest)
  | start =>
    if (afterLine? start).isSome then some (.blank, start)
    else (pair? (value? 79) start).map fun read => (.entry read.1.1 read.1.2, read.2)

/-- Reads the lines of a text. -/
def lines? (cs : List Char) : Option (List Line) :=
  if cs = [] then some []
  else do
    let (line, rest) ← Line.content? cs
    let rest ← afterLine? rest
    if _shorter : rest.length < cs.length then return line :: (← lines? rest)
    else none
termination_by cs.length

/-! ## Tables -/

/-- The entries of a document, after a line; `current` is the table that values are meant for. -/
def Line.apply (document : Entries × List String) (line : Line) :
    Option (Entries × List String) :=
  let (entries, current) := document
  match line with
  | .blank => some document
  | .entry path value =>
    (Entries.within (Entries.define path value) current entries).map fun entries =>
      (entries, current)
  | .table path =>
    path.getLast?.bind fun key =>
      (Entries.within (Entries.openTable key) path.dropLast entries).map fun entries =>
        (entries, path)
  | .element path =>
    path.getLast?.bind fun key =>
      (Entries.within (Entries.extendArray key) path.dropLast entries).map fun entries =>
        (entries, path)

/-- The table that lines define. -/
def ofLines? (lines : List Line) : Option Table :=
  (lines.foldlM Line.apply ([], [])).map fun document => Entries.table document.1

/-- Reads a document. A byte order mark in front does not count. -/
def read? (text : String) : Option Table :=
  let cs := match text.toList with
    | '\ufeff' :: cs => cs
    | cs => cs
  (lines? cs).bind ofLines?

end SearchJoin.Toml
