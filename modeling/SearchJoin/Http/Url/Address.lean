import SearchJoin.Text.Blank
import SearchJoin.Text.Digits

/-!
# Addresses of hosts

IPv4 addresses have four bytes, IPv6 addresses eight groups of sixteen bits.
-/

namespace SearchJoin.Http

/-! ## IPv4 -/

namespace IPv4

/-- A number of an address: hexadecimal after `0x`, octal after `0`, else decimal. -/
def number? : List Char → Option Nat
  | [] => none
  | '0' :: 'x' :: cs => Text.inBase? 16 cs
  | '0' :: 'X' :: cs => Text.inBase? 16 cs
  | '0' :: c :: cs => Text.inBase? 8 (c :: cs)
  | cs => Text.inBase? 10 cs

/-- The labels of a host name, without the empty one after a point at its end. -/
def labels (host : List Char) : List (List Char) :=
  let pieces := Text.split '.' host
  if pieces.length > 1 ∧ pieces.getLast? = some [] then pieces.dropLast else pieces

/-- The host has to be an address: its last label is a number. -/
def endsInNumber (host : List Char) : Bool :=
  match (labels host).getLast? with
  | none => false
  | some label => (label ≠ [] && label.all Char.isDigit) || (number? label).isSome

/-- Bytes, in decimal and with points between them. -/
def text (bytes : List Nat) : List Char :=
  (bytes.map Text.decimalDigits).intersperse ['.'] |>.flatten

/-- The text of an address that is read from at most four numbers, of which the last one fills the
bytes that are left. -/
def normal? (host : List Char) : Option (List Char) := do
  let numbers ← (labels host).mapM number?
  let last ← numbers.getLast?
  let front := numbers.dropLast
  guard (numbers.length ≤ 4 ∧ front.all (· < 256) ∧ last < Nat.pow 256 (4 - front.length))
  let rest := (List.range (4 - front.length)).map fun i =>
    last / Nat.pow 256 (3 - front.length - i) % 256
  return text (front ++ rest)

/-- A byte in decimal, without needless zeros. -/
def byte? (cs : List Char) : Option Nat :=
  (Text.natural? cs).filter fun n => n < 256 && Text.decimalDigits n == cs

/-- The bytes of an address of four bytes in decimal. -/
def bytes? (cs : List Char) : Option (List Nat) :=
  ((Text.split '.' cs).mapM byte?).filter fun bytes => bytes.length == 4

end IPv4

/-! ## IPv6 -/

namespace IPv6

/-- A group: up to four hexadecimal digits. -/
def group? (cs : List Char) : Option Nat :=
  if 1 ≤ cs.length ∧ cs.length ≤ 4 then Text.inBase? 16 cs else none

/-- The last two groups in the form of an IPv4 address. -/
def mixed? (cs : List Char) : Option (List Nat) :=
  match IPv4.bytes? cs with
  | some [a, b, c, d] => some [256 * a + b, 256 * c + d]
  | _ => none

/-- The groups of the pieces between colons; the last ones may have the form of an IPv4 address if
they end the address. -/
def groups? (isEnd : Bool) : List (List Char) → Option (List Nat)
  | [] => some []
  | [cs] =>
    match group? cs with
    | some n => some [n]
    | none => if isEnd then mixed? cs else none
  | cs :: rest => do return (← group? cs) :: (← groups? isEnd rest)

/-- The groups of one side of an address, which may be empty. -/
def side? (isEnd : Bool) (cs : List Char) : Option (List Nat) :=
  if cs = [] then some [] else groups? isEnd (Text.split ':' cs)

/-- The text before the first two colons that stand together, and the text behind them if there
are any. -/
def cutGap : List Char → List Char × Option (List Char)
  | [] => ([], none)
  | ':' :: ':' :: cs => ([], some cs)
  | c :: cs => let (before, behind) := cutGap cs; (c :: before, behind)

/-- Reads the eight groups of an address. Two colons stand for groups of zeros, of which there is at
least one. -/
def read? (cs : List Char) : Option (List Nat) :=
  match cutGap cs with
  | (_, none) => (groups? true (Text.split ':' cs)).filter fun groups => groups.length == 8
  | (before, some behind) => do
    let front ← side? false before
    let back ← side? true behind
    let known := front.length + back.length
    if known < 8 then return front ++ List.replicate (8 - known) 0 ++ back else none

/-- The groups in hexadecimal, with colons between them. -/
def join (groups : List Nat) : List Char :=
  (groups.map (Nat.toDigits 16)).intersperse [':'] |>.flatten

/-- How many groups of zeros stand in front. -/
def zeros (groups : List Nat) : Nat := (groups.takeWhile (· = 0)).length

/-- Where the first of the longest runs of zeros starts, and how long it is. -/
def longestGap (groups : List Nat) : Nat × Nat :=
  (List.range groups.length).foldl (fun best i =>
    let length := zeros (groups.drop i)
    if best.2 < length then (i, length) else best) (0, 0)

/-- The text of an address. The longest run of zeros is left out if there are two or more. -/
def text (groups : List Nat) : List Char :=
  let (start, length) := longestGap groups
  if length < 2 then join groups
  else join (groups.take start) ++ [':', ':'] ++ join (groups.drop (start + length))

end IPv6

end SearchJoin.Http
