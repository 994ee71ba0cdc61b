/-!
# Base64

Bytes as text of the 64 characters `A–Z`, `a–z`, `0–9`, `+` and `/`, filled up with `=` to a
multiple of four.
-/

namespace SearchJoin.Http.Base64

/-- The character of six bits. -/
def digit (n : Nat) : Char :=
  if n < 26 then Char.ofNat ('A'.toNat + n)
  else if n < 52 then Char.ofNat ('a'.toNat + (n - 26))
  else if n < 62 then Char.ofNat ('0'.toNat + (n - 52))
  else if n = 62 then '+'
  else '/'

/-- The text of bytes: three bytes make four characters. -/
def encode : List UInt8 → List Char
  | [] => []
  | [a] =>
    let n := a.toNat * 0x10000
    [digit (n / 0x40000), digit (n / 0x1000 % 64), '=', '=']
  | [a, b] =>
    let n := a.toNat * 0x10000 + b.toNat * 0x100
    [digit (n / 0x40000), digit (n / 0x1000 % 64), digit (n / 0x40 % 64), '=']
  | a :: b :: c :: rest =>
    let n := a.toNat * 0x10000 + b.toNat * 0x100 + c.toNat
    digit (n / 0x40000) :: digit (n / 0x1000 % 64) :: digit (n / 0x40 % 64) :: digit (n % 64) ::
      encode rest

end SearchJoin.Http.Base64
