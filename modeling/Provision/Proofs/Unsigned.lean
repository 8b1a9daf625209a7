import Provision.Proofs.Json.Grammar
import Provision.Text.Unsigned

/-!
Unsigned numerals as a language, apart from any way of reading them. Just the numerals of numbers
below the bound are read, each as its number.
-/
namespace Provision.Text

open Json (Digits ofDigits)

/-- The characters write the number: digits, and perhaps a plus sign before them. -/
inductive WritesUnsigned : List Char → Nat → Prop
  | bare {ds : List Char} (h : Digits ds) : WritesUnsigned ds (ofDigits ds)
  | plus {ds : List Char} (h : Digits ds) : WritesUnsigned ('+' :: ds) (ofDigits ds)

variable {b n m : Nat} {cs : List Char} {s : String}

theorem WritesUnsigned.isDigit_or_eq_plus (h : WritesUnsigned cs n) {c : Char} (hc : c ∈ cs) :
    c.isDigit = true ∨ c = '+' := by
  cases h with
  | bare h => exact .inl (h.2 c hc)
  | plus h =>
    obtain rfl | hc := List.mem_cons.mp hc
    · exact .inr rfl
    · exact .inl (h.2 c hc)

/-- What is read is the value of digits, after those that make `n`. -/
theorem digits_of_readDigits (h : readDigits b n cs = .ok m) :
    (∀ c ∈ cs, c.isDigit = true) ∧ Nat.ofDigitChars 10 cs n = m := by
  induction cs generalizing n with
  | nil =>
    cases h
    exact ⟨List.forall_mem_nil _, Nat.ofDigitChars_nil⟩
  | cons c cs ih =>
    rw [readDigits] at h
    split at h
    next hc =>
      simp only at h
      split at h
      · obtain ⟨hdigits, hvalue⟩ := ih h
        exact ⟨List.forall_mem_cons.mpr ⟨hc, hdigits⟩, hvalue⟩
      · cases h
    next => cases h

/-- Digits are read exactly when their value is below the bound. -/
theorem readDigits_eq_ok_iff (hn : n < b) :
    readDigits b n cs = .ok m ↔ (∀ c ∈ cs, c.isDigit = true) ∧
      Nat.ofDigitChars 10 cs n = m ∧ m < b := by
  constructor
  · intro h
    obtain ⟨hdigits, hvalue⟩ := digits_of_readDigits h
    exact ⟨hdigits, hvalue, readDigits_lt hn h⟩
  · rintro ⟨hdigits, rfl, hm⟩
    exact readDigits_of_lt hdigits hm

theorem readUnsigned_of_plus (hs : s.toList = '+' :: cs) (hcs : cs ≠ []) :
    readUnsigned b s = readDigits b 0 cs := by
  unfold readUnsigned
  split
  next he => simp [hs] at he
  next he => exact absurd (List.cons.inj (hs.symm.trans he)).2 hcs
  next he => rw [(List.cons.inj (hs.symm.trans he)).2]
  next hne => exact absurd hs (hne cs)

/-- Just the numerals of numbers below the bound are read. -/
theorem readUnsigned_eq_ok_iff (hb : 0 < b) :
    readUnsigned b s = .ok n ↔ WritesUnsigned s.toList n ∧ n < b := by
  constructor
  · intro h
    unfold readUnsigned at h
    split at h
    next => cases h
    next => cases h
    next cs hplus hs =>
      obtain ⟨hdigits, rfl, hn⟩ := (readDigits_eq_ok_iff hb).mp h
      rw [hs]
      exact ⟨.plus ⟨hplus, hdigits⟩, hn⟩
    next hnil _ _ =>
      obtain ⟨hdigits, rfl, hn⟩ := (readDigits_eq_ok_iff hb).mp h
      exact ⟨.bare ⟨hnil, hdigits⟩, hn⟩
  · rintro ⟨hwrites, hn⟩
    generalize hs : s.toList = cs at hwrites
    cases hwrites with
    | bare hdigits =>
      cases cs with
      | nil => exact absurd rfl hdigits.1
      | cons c cs =>
        have hc : c ≠ '+' := by
          rintro rfl
          exact absurd (hdigits.2 _ List.mem_cons_self) (by decide)
        rw [readUnsigned_of_ne_plus hs hc]
        exact (readDigits_eq_ok_iff hb).mpr ⟨hdigits.2, rfl, hn⟩
    | plus hdigits =>
      rw [readUnsigned_of_plus hs hdigits.1]
      exact (readDigits_eq_ok_iff hb).mpr ⟨hdigits.2, rfl, hn⟩

end Provision.Text
