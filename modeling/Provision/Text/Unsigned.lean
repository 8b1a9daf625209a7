/-!
Unsigned numerals: an optional plus sign, then decimal digits, and a value within a bound.
Characters are looked at from the left, so that the first fault decides.
-/
namespace Provision.Text

/-- Why a text is no unsigned numeral. -/
inductive UnsignedFault where
  | empty
  | digit
  | tooLarge
  deriving DecidableEq

def UnsignedFault.message : UnsignedFault → String
  | .empty => "cannot parse integer from empty string"
  | .digit => "invalid digit found in string"
  | .tooLarge => "number too large to fit in target type"

/-- The digits after a numeral of value `n`; values are kept below `bound`. -/
def readDigits (bound : Nat) : Nat → List Char → Except UnsignedFault Nat
  | n, [] => .ok n
  | n, c :: cs =>
    if c.isDigit then
      let m := 10 * n + (c.toNat - '0'.toNat)
      if m < bound then readDigits bound m cs else .error .tooLarge
    else .error .digit

/-- The value of a numeral below `bound`. -/
def readUnsigned (bound : Nat) (s : String) : Except UnsignedFault Nat :=
  match s.toList with
  | [] => .error .empty
  | ['+'] => .error .digit
  | '+' :: cs => readDigits bound 0 cs
  | cs => readDigits bound 0 cs

@[simp] theorem readDigits_nil {b n : Nat} : readDigits b n [] = .ok n := rfl

theorem readDigits_lt {b n m : Nat} {cs : List Char} (hn : n < b)
    (h : readDigits b n cs = .ok m) : m < b := by
  induction cs generalizing n with
  | nil => simp_all
  | cons c cs ih =>
    simp only [readDigits] at h
    split at h
    · split at h
      · exact ih ‹_› h
      · simp at h
    · simp at h

theorem le_ofDigitChars (cs : List Char) (n : Nat) : n ≤ Nat.ofDigitChars 10 cs n := by
  rw [Nat.ofDigitChars_eq_ofDigitChars_zero]
  have hpow : 0 < 10 ^ cs.length := Nat.pow_pos (by decide)
  have := Nat.le_mul_of_pos_left n hpow
  omega

/-- Digits that stay below the bound are read as what they write. -/
theorem readDigits_of_lt {b n : Nat} {cs : List Char} (h : ∀ c ∈ cs, c.isDigit = true)
    (hb : Nat.ofDigitChars 10 cs n < b) : readDigits b n cs = .ok (Nat.ofDigitChars 10 cs n) := by
  induction cs generalizing n with
  | nil => rw [readDigits_nil, Nat.ofDigitChars_nil]
  | cons c cs ih =>
    rw [Nat.ofDigitChars_cons] at hb ⊢
    rw [readDigits, if_pos (h c List.mem_cons_self),
      if_pos (Nat.lt_of_le_of_lt (le_ofDigitChars cs _) hb)]
    exact ih (fun d hd => h d (List.mem_cons_of_mem _ hd)) hb

theorem readUnsigned_of_ne_plus {b : Nat} {s : String} {c : Char} {cs : List Char}
    (hs : s.toList = c :: cs) (hc : c ≠ '+') : readUnsigned b s = readDigits b 0 (c :: cs) := by
  unfold readUnsigned
  split
  next he => simp [hs] at he
  next he => exact absurd (List.cons.inj (hs.symm.trans he)).1 hc
  next he => exact absurd (List.cons.inj (hs.symm.trans he)).1 hc
  next => rw [hs]

/-- The digits of a number are a numeral for it. -/
theorem readUnsigned_toString {b n : Nat} (h : n < b) : readUnsigned b (toString n) = .ok n := by
  have htext : (toString n).toList = Nat.toDigits 10 n := Nat.toList_repr
  have hdigits : ∀ c ∈ Nat.toDigits 10 n, c.isDigit = true := fun c =>
    Nat.isDigit_of_mem_toDigits (by decide) (by decide)
  have hread := readDigits_of_lt (b := b) (n := 0) hdigits (by rwa [Nat.ofDigitChars_ten_toDigits])
  rw [Nat.ofDigitChars_ten_toDigits] at hread
  cases hcs : Nat.toDigits 10 n with
  | nil => exact absurd hcs Nat.toDigits_ne_nil
  | cons c cs =>
    rw [hcs] at htext hdigits hread
    refine (readUnsigned_of_ne_plus htext fun hc => ?_).trans hread
    have hplus := hdigits c List.mem_cons_self
    rw [hc] at hplus
    exact absurd hplus (by decide)

example : readUnsigned UInt64.size "+007" = .ok 7 := rfl
example : readUnsigned UInt64.size "18446744073709551616" = .error .tooLarge := rfl
example : readUnsigned UInt64.size "18446744073709551615x" = .error .digit := rfl

end Provision.Text
