/-!
Base 64 with the standard alphabet and padding: three bytes become four characters.
-/
namespace Provision

abbrev Bytes := List UInt8

namespace Base64

/-- The character of a value below 64. -/
def letter (n : Nat) : Char :=
  if n < 26 then Char.ofNat ('A'.toNat + n)
  else if n < 52 then Char.ofNat ('a'.toNat + (n - 26))
  else if n < 62 then Char.ofNat ('0'.toNat + (n - 52))
  else if n = 62 then '+' else '/'

/-- The `i`-th group of six bits, from the left, of a number of 24 bits. -/
def sextet (n i : Nat) : Char := letter (n / Nat.pow 64 (3 - i) % 64)

def encodeChars : Bytes → List Char
  | [] => []
  | [a] =>
    let n := a.toNat * 65536
    [sextet n 0, sextet n 1, '=', '=']
  | [a, b] =>
    let n := a.toNat * 65536 + b.toNat * 256
    [sextet n 0, sextet n 1, sextet n 2, '=']
  | a :: b :: c :: rest =>
    let n := a.toNat * 65536 + b.toNat * 256 + c.toNat
    sextet n 0 :: sextet n 1 :: sextet n 2 :: sextet n 3 :: encodeChars rest

def encode (bs : Bytes) : String := String.ofList (encodeChars bs)

/-- The value of a character of the alphabet. -/
def value? (c : Char) : Option Nat :=
  if 'A' ≤ c ∧ c ≤ 'Z' then some (c.toNat - 'A'.toNat)
  else if 'a' ≤ c ∧ c ≤ 'z' then some (c.toNat - 'a'.toNat + 26)
  else if '0' ≤ c ∧ c ≤ '9' then some (c.toNat - '0'.toNat + 52)
  else if c = '+' then some 62
  else if c = '/' then some 63
  else none

/-- Four characters at a time; padding ends the text. -/
def decodeChars : List Char → Option Bytes
  | [] => some []
  | [p, q, '=', '='] => do
    let n := (← value? p) * 64 + (← value? q)
    return [UInt8.ofNat (n / 16)]
  | [p, q, r, '='] => do
    let n := ((← value? p) * 64 + (← value? q)) * 64 + (← value? r)
    return [UInt8.ofNat (n / 1024), UInt8.ofNat (n / 4)]
  | p :: q :: r :: s :: rest => do
    let n := (((← value? p) * 64 + (← value? q)) * 64 + (← value? r)) * 64 + (← value? s)
    let bs ← decodeChars rest
    return UInt8.ofNat (n / 65536) :: UInt8.ofNat (n / 256) :: UInt8.ofNat n :: bs
  | _ => none

def decode (s : String) : Option Bytes := decodeChars s.toList

example : encode [0xff] = "/w==" := by decide +kernel
example : encode [0x75, 0x64] = "dWQ=" := by decide +kernel
example : decode "dWQ=" = some [0x75, 0x64] := by decide +kernel

end Base64
end Provision
