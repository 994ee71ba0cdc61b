/-!
# Numbers in digits

Texts are lists of characters here.
-/

namespace SearchJoin.Text

/-- The digits of a natural number, in decimal. -/
def decimalDigits (n : Nat) : List Char := Nat.toDigits 10 n

/-- The value of a digit. -/
def digitValue (c : Char) : Nat := c.toNat - '0'.toNat

/-- The number that decimal digits denote. -/
def ofDecimalDigits (digits : List Char) : Nat :=
  digits.foldl (fun n c => 10 * n + digitValue c) 0

/-- The number that a text of decimal digits denotes. -/
def natural? (cs : List Char) : Option Nat :=
  if cs ≠ [] ∧ cs.all Char.isDigit then some (ofDecimalDigits cs) else none

/-- The unsigned word that decimal digits denote, which a plus sign may precede. -/
def word? (cs : List Char) : Option UInt64 :=
  let digits := match cs with
    | '+' :: rest => rest
    | _ => cs
  (natural? digits).bind fun n => if n < 0x10000000000000000 then some (.ofNat n) else none

/-- The value of a hexadecimal digit of either case. -/
def hexValue? (c : Char) : Option Nat :=
  if c.isDigit then some (digitValue c)
  else if 'a' ≤ c ∧ c ≤ 'f' then some (c.toNat - 'a'.toNat + 10)
  else if 'A' ≤ c ∧ c ≤ 'F' then some (c.toNat - 'A'.toNat + 10)
  else none

/-- A hexadecimal digit, in upper case. -/
def upperHexDigit (n : Nat) : Char := (Nat.digitChar n).toUpper

/-- The number that digits below a base denote; no digits are zero. -/
def inBase? (base : Nat) (cs : List Char) : Option Nat :=
  let extend (n : Nat) (c : Char) : Option Nat :=
    (hexValue? c).bind fun digit => if digit < base then some (base * n + digit) else none
  cs.foldlM extend 0

end SearchJoin.Text
