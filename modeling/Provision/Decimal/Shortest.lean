/-!
Binary floating-point numbers in decimal: the fewest digits that only this number rounds from, and
of those the nearest. They are written out in full, or with an exponent when they start far from the
point.
-/
namespace Provision.Decimal

/-- `mantissa * 2 ^ exponent`. When `tight`, the next number below is half as far away as the next
above. -/
structure Binary where
  mantissa : Nat
  exponent : Int
  tight : Bool
  deriving DecidableEq

/-- The magnitude of a finite number from its 64 bits. -/
def Binary.ofBits (bits : Nat) : Binary :=
  let biased : Nat := bits / 0x10000000000000 % 0x800
  let fraction : Nat := bits % 0x10000000000000
  if biased = 0 then ⟨fraction, -1074, false⟩
  else ⟨0x10000000000000 + fraction, (biased : Int) - 1075, fraction = 0 && 1 < biased⟩

/-- Numerator and denominator of `x * 2 ^ e / 10 ^ k`. -/
def ratio (x : Nat) (e k : Int) : Nat × Nat :=
  (x * Nat.pow 2 e.toNat * Nat.pow 10 (-k).toNat, Nat.pow 2 (-e).toNat * Nat.pow 10 k.toNat)

/-- Rounding to `b` takes `n * 10 ^ k` to it. The ends count when the mantissa is even. -/
def Binary.covers (b : Binary) (n : Nat) (k : Int) : Bool :=
  let (lo, unit) := ratio (4 * b.mantissa - if b.tight then 1 else 2) (b.exponent - 2) k
  let (hi, _) := ratio (4 * b.mantissa + 2) (b.exponent - 2) k
  if b.mantissa % 2 = 0 then lo ≤ n * unit && n * unit ≤ hi else lo < n * unit && n * unit < hi

/-- Of the multiples of `10 ^ k` around `b`, the nearest that rounds to it, and of two the even
one. -/
def Binary.onGrid? (b : Binary) (k : Int) : Option Nat :=
  let (x, unit) := ratio b.mantissa b.exponent k
  let below := x / unit
  match b.covers below k, b.covers (below + 1) k with
  | true, true =>
    let rest := 2 * (x - below * unit)
    some (if rest < unit ∨ rest = unit ∧ below % 2 = 0 then below else below + 1)
  | true, false => some below
  | false, true => some (below + 1)
  | false, false => none

/-- The power of ten of the first digit. -/
def Binary.magnitude (b : Binary) : Int :=
  let (x, unit) := ratio b.mantissa b.exponent 0
  if unit ≤ x then ((Nat.toDigits 10 (x / unit)).length : Int) - 1
  else
    match (List.range 400).find? fun j => unit ≤ x * Nat.pow 10 j with
    | some j => -(j : Int)
    | none => -400

/-- Digits and the power of ten of the last: the coarsest grid with a hit. -/
def Binary.shortest (b : Binary) : Nat × Int :=
  let top := b.magnitude
  let k (n : Nat) : Int := top - n
  match (List.range 17).findSome? fun n => (b.onGrid? (k n)).map (·, k n) with
  | some r => r
  | none => (0, 0)

/-- `n * 10 ^ k` written out, with a point and a digit on either side of it. -/
def positional (n : Nat) (k : Int) : String :=
  let ds := Nat.toDigits 10 n
  if 0 ≤ k then String.ofList (ds ++ List.replicate k.toNat '0' ++ ['.', '0'])
  else
    let places := k.natAbs
    let ds := List.replicate (places + 1 - ds.length) '0' ++ ds
    let fraction := (ds.drop (ds.length - places)).reverse.dropWhile (· == '0')
    let fraction := if fraction.isEmpty then ['0'] else fraction.reverse
    String.ofList (ds.take (ds.length - places) ++ '.' :: fraction)

/-- `n * 10 ^ k` as its first digit, a point and the other digits if there are any, and the power of
ten of the first digit with its sign. -/
def scientific (n : Nat) (k : Int) : String :=
  let ds := Nat.toDigits 10 n
  let rest := ((ds.drop 1).reverse.dropWhile (· == '0')).reverse
  let power := k + (ds.length : Int) - 1
  String.ofList
    (ds.take 1 ++ (if rest.isEmpty then [] else '.' :: rest) ++ ['e',
      if power < 0 then '-' else '+'] ++
      Nat.toDigits 10 power.natAbs)

/-- Digits that start at one of these powers of ten are written out in full. -/
def isNearPoint (power : Int) : Bool := -5 ≤ power && power ≤ 15

/-- `n * 10 ^ k` as a text. -/
def notated (n : Nat) (k : Int) : String :=
  if isNearPoint (k + ((Nat.toDigits 10 n).length : Int) - 1) then positional n k
  else scientific n k

/-- The text of a finite number. -/
def ofFloat (f : Float) : String :=
  let bits := f.toBits.toNat
  let sign := if bits / 0x8000000000000000 = 1 then "-" else ""
  let b := Binary.ofBits (bits % 0x8000000000000000)
  if b.mantissa = 0 then sign ++ "0.0"
  else
    let (n, k) := b.shortest
    sign ++ notated n k

example : positional 15 (-1) = "1.5" := by decide +kernel
example : positional 5 (-3) = "0.005" := by decide +kernel
example : positional 12 2 = "1200.0" := by decide +kernel
example : notated 1 15 = "1000000000000000.0" := by decide +kernel
example : notated 10 15 = "1e+16" := by decide +kernel
example : notated 12345 (-10) = "1.2345e-6" := by decide +kernel
example : (Binary.ofBits 0x3FB999999999999A).shortest = (1, -1) := by decide +kernel
example : (Binary.ofBits 1).shortest = (5, -324) := by decide +kernel

end Provision.Decimal
