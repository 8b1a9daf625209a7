import Provision.Json.Basic

/-!
The value of a numeral: an integer where one of 64 bits holds it, and else a floating-point number.
-/
namespace Provision.Json

inductive Number where
  | natural (n : Nat)
  | negative (n : Int)
  | real (x : Float)

/-- Digits gathered into a number of 64 bits. From the first digit that does not fit, none is taken;
`dropped` counts them. -/
def gather : Nat → List Nat → Nat × Nat
  | n, [] => (n, 0)
  | n, d :: ds => if 10 * n + d < UInt64.size then gather (10 * n + d) ds else (n, ds.length + 1)

/-- The digits of a numeral as one integer, and the power of ten to multiply by. A digit of the
whole part that is left out raises the power, and a digit of the fraction that is taken lowers
it. -/
def Numeral.scaled (n : Numeral) : Nat × Int :=
  let whole := gather 0 ((Nat.toDigits 10 n.whole).map fun c => c.toNat - '0'.toNat)
  let all := gather whole.1 (n.fraction.map Fin.val)
  let taken := n.fraction.length - all.2
  (all.1, (whole.2 : Int) - taken + n.exponent.getD 0)

/-- `x * 10 ^ k`, by one multiplication or division, or nothing beyond the largest finite number.
Powers of ten below the table are divided by in steps of 308. -/
def scale (x : Float) (k : Int) : Option Float :=
  if x == 0 then some x
  else if 308 < k then none
  else if 0 ≤ k then
    let y := x * Float.ofScientific 1 false k.toNat
    if y.isInf then none else some y
  else if -308 ≤ k then some (x / Float.ofScientific 1 false k.natAbs)
  else if -616 ≤ k then
    some (x / Float.ofScientific 1 false 308 / Float.ofScientific 1 false (k.natAbs - 308))
  else some 0

/-- The value of a numeral as a floating-point number. -/
def Numeral.real? (n : Numeral) : Option Number :=
  let (m, k) := n.scaled
  (scale m.toUInt64.toFloat k).map fun x => .real (if n.negative then -x else x)

/-- The value of a numeral, or nothing when it is too large. A minus zero is no integer. -/
def Numeral.number? (n : Numeral) : Option Number :=
  match n with
  | ⟨false, whole, [], none⟩ => if whole < UInt64.size then some (.natural whole) else n.real?
  | ⟨true, whole, [], none⟩ =>
    if 0 < whole ∧ whole ≤ 0x8000000000000000 then some (.negative (-(whole : Int))) else n.real?
  | _ => n.real?

theorem Numeral.number?_ofNat {n : Nat} (h : n < UInt64.size) :
    (Numeral.ofNat n).number? = some (.natural n) := if_pos h

theorem Numeral.number?_ofInt_of_neg {n : Int} (h : n < 0) (hn : -0x8000000000000000 ≤ n) :
    (Numeral.ofInt n).number? = some (.negative n) := by
  have he : Numeral.ofInt n = ⟨true, n.natAbs, [], none⟩ := by rw [Numeral.ofInt, decide_eq_true h]
  have hr : 0 < n.natAbs ∧ n.natAbs ≤ 0x8000000000000000 := by omega
  have hv : -(n.natAbs : Int) = n := by omega
  rw [he]
  exact (if_pos hr).trans (congrArg (fun k => some (Number.negative k)) hv)

theorem Numeral.number?_ofInt_of_nonneg {n : Int} (h : 0 ≤ n) (hn : n < 0x8000000000000000) :
    (Numeral.ofInt n).number? = some (.natural n.natAbs) := by
  have he : Numeral.ofInt n = Numeral.ofNat n.natAbs := by
    rw [Numeral.ofInt, decide_eq_false (by omega)]
    rfl
  rw [he]
  exact Numeral.number?_ofNat (by simp only [UInt64.size]; omega)

end Provision.Json
