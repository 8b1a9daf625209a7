/-!
Hexadecimal digits, read in letters of either case and written in small ones.
-/
namespace Provision.Text

def hexDigit? (c : Char) : Option Nat :=
  if c.isDigit then some (c.toNat - '0'.toNat)
  else if 'a' ≤ c ∧ c ≤ 'f' then some (c.toNat - 'a'.toNat + 10)
  else if 'A' ≤ c ∧ c ≤ 'F' then some (c.toNat - 'A'.toNat + 10)
  else none

/-- The digit of a number below sixteen. -/
def hexLetter (n : Nat) : Char :=
  Char.ofNat (if n < 10 then '0'.toNat + n else 'a'.toNat + (n - 10))

theorem hexDigit?_hexLetter : ∀ n < 16, hexDigit? (hexLetter n) = some n := by decide +kernel

/-- The number that hexadecimal digits write. -/
def hexValue? (cs : List Char) : Option Nat :=
  cs.foldlM (fun n c => (hexDigit? c).map (16 * n + ·)) 0

theorem utf8Size_of_hexDigit? {c : Char} {n : Nat} (h : hexDigit? c = some n) : c.utf8Size = 1 := by
  refine Char.utf8Size_eq_one_iff.mpr (UInt32.le_iff_toNat_le.mpr (show c.toNat ≤ 127 from ?_))
  have hle {d : Char} (hc : c ≤ d) (hd : d.toNat ≤ 127) : c.toNat ≤ 127 := Nat.le_trans hc hd
  unfold hexDigit? at h
  split at h
  next hc => exact Nat.le_trans (Char.isDigit_iff_toNat.mp hc).2 (by decide)
  split at h
  next hc => exact hle hc.2 (by decide)
  split at h
  next hc => exact hle hc.2 (by decide)
  next => cases h

/-- Only digits make up a number. -/
theorem utf8Size_of_hexValue? {cs : List Char} {n : Nat} (h : hexValue? cs = some n) :
    ∀ c ∈ cs, c.utf8Size = 1 := by
  have hfold : ∀ (cs : List Char) (m : Nat),
      cs.foldlM (fun n c => (hexDigit? c).map (16 * n + ·)) m = some n →
      ∀ c ∈ cs, c.utf8Size = 1 := by
    intro cs
    induction cs with
    | nil => exact fun _ _ => nofun
    | cons d cs ih =>
      intro m hm
      rw [List.foldlM_cons, Option.bind_eq_bind, Option.bind_eq_some_iff] at hm
      obtain ⟨k, hk, hrest⟩ := hm
      obtain ⟨j, hj, -⟩ := Option.map_eq_some_iff.mp hk
      exact List.forall_mem_cons.mpr ⟨utf8Size_of_hexDigit? hj, ih k hrest⟩
  exact hfold cs 0 h

example : hexValue? ['f', '0', 'A'] = some 0xF0A := by decide +kernel

end Provision.Text
