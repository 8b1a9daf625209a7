import Provision.Machine.Name
import Provision.Text.Blank
import Provision.Text.Width

/-!
Which names are accepted, told by their characters alone. All of them take one byte, so that it does
not matter whether a name is measured in bytes or in characters. Names joined by a character that
they lack can be told apart again.
-/
namespace Provision

section Joining

variable {α : Type} {c : α} {xs xs' ys ys' : List α}

/-- The first separator parts what is joined. -/
theorem eq_of_append_separator (h : c ∉ xs) (h' : c ∉ xs') (he : xs ++ c :: ys = xs' ++ c :: ys') :
    xs = xs' ∧ ys = ys' := by
  obtain ⟨zs, hxs, hys⟩ | ⟨zs, hxs, hys⟩ := List.append_eq_append_iff.mp he
  · cases zs with
    | nil =>
      cases hys
      exact ⟨by simpa using hxs.symm, rfl⟩
    | cons z zs =>
      cases hys
      exact absurd (hxs ▸ List.mem_append_right _ (List.mem_cons_self ..)) h'
  · cases zs with
    | nil =>
      cases hys
      exact ⟨by simpa using hxs, rfl⟩
    | cons z zs =>
      cases hys
      exact absurd (hxs ▸ List.mem_append_right _ (List.mem_cons_self ..)) h

/-- The last separator parts what is joined. -/
theorem eq_of_separator_append (h : c ∉ ys) (h' : c ∉ ys') (he : xs ++ c :: ys = xs' ++ c :: ys') :
    xs = xs' ∧ ys = ys' := by
  have hreverse : ys.reverse ++ c :: xs.reverse = ys'.reverse ++ c :: xs'.reverse := by
    simpa using congrArg List.reverse he
  obtain ⟨hys, hxs⟩ := eq_of_append_separator (by simpa using h) (by simpa using h') hreverse
  exact ⟨List.reverse_inj.mp hxs, List.reverse_inj.mp hys⟩

end Joining

/-- A name for an instance: it starts with a lowercase letter and does not end with a hyphen. -/
structure IsInstanceName (s : String) : Prop where
  length : s.toList.length ≤ maxNameLength
  start : ∃ c ∈ s.toList.head?, c.isLower = true
  chars : ∀ c ∈ s.toList, isNameChar c = true
  ending : s.toList.getLast? ≠ some '-'

/-- A label of RFC 1123: lowercase letters, digits and hyphens, with no hyphen at either end. -/
structure IsLabel (s : String) : Prop where
  nonempty : s ≠ ""
  length : s.toList.length ≤ maxNameLength
  chars : ∀ c ∈ s.toList, isNameChar c = true
  start : s.toList.head? ≠ some '-'
  ending : s.toList.getLast? ≠ some '-'

theorem Text.utf8ByteSize_eq_byteLength (s : String) : s.utf8ByteSize = byteLength s.toList := by
  have hlist : ∀ cs : List Char, (String.ofList cs).utf8ByteSize = byteLength cs := by
    intro cs
    induction cs with
    | nil => rfl
    | cons c cs ih =>
      rw [byteLength_cons, ← ih, ← String.length_utf8EncodeChar c]
      simp only [← String.size_toByteArray, String.toByteArray_ofList]
      rw [List.utf8Encode_cons, ByteArray.size_append, List.utf8Encode_singleton,
        List.size_toByteArray]
  rw [← hlist, String.ofList_toList]

theorem toNat_lt_of_isNameChar {c : Char} (h : isNameChar c = true) : c.toNat < 128 := by
  have hbound : ∀ b : UInt32, b.toNat < 128 → c.val ≤ b → c.toNat < 128 :=
    fun b hb hc => Nat.lt_of_le_of_lt (UInt32.le_iff_toNat_le.mp hc) hb
  simp only [isNameChar, Bool.or_eq_true, decide_eq_true_eq] at h
  obtain (hlower | hdigit) | rfl := h
  · exact hbound 122 (by decide) (of_decide_eq_true (Bool.and_eq_true_iff.mp hlower).2)
  · exact hbound 57 (by decide) (of_decide_eq_true (Bool.and_eq_true_iff.mp hdigit).2)
  · decide

/-- What holds of the names' characters is decided on the first 128. -/
theorem of_isNameChar {p : Char → Prop}
    (h : ∀ n < 128, isNameChar (Char.ofNat n) = true → p (Char.ofNat n)) {c : Char}
    (hc : isNameChar c = true) : p c := by
  have hn := h c.toNat (toNat_lt_of_isNameChar hc)
  rw [Char.ofNat_toNat] at hn
  exact hn hc

section Names

variable {s : String}

theorem utf8ByteSize_eq_length (h : ∀ c ∈ s.toList, isNameChar c = true) :
    s.utf8ByteSize = s.toList.length := by
  rw [Text.utf8ByteSize_eq_byteLength]
  refine Text.byteLength_eq_length fun c hc => Char.utf8Size_eq_one_iff.mpr ?_
  have hlt := toNat_lt_of_isNameChar (h c hc)
  exact UInt32.le_iff_toNat_le.mpr (Nat.le_of_lt_succ hlt)

theorem instanceNameFault?_eq_none : instanceNameFault? s = none ↔ IsInstanceName s := by
  have hchecks : instanceNameFault? s = none ↔ s ≠ "" ∧ s.utf8ByteSize ≤ maxNameLength ∧
      s.toList.head?.any Char.isLower = true ∧ s.toList.all isNameChar = true ∧
        s.toList.getLast? ≠ some '-' := by
    unfold instanceNameFault?
    grind
  rw [hchecks, List.all_eq_true, Option.any_eq_true]
  constructor
  · rintro ⟨_, hsize, hstart, hchars, hending⟩
    rw [utf8ByteSize_eq_length hchars] at hsize
    exact ⟨hsize, hstart, hchars, hending⟩
  · rintro ⟨hlength, ⟨c, hc, hlower⟩, hchars, hending⟩
    rw [utf8ByteSize_eq_length hchars]
    refine ⟨?_, hlength, ⟨c, hc, hlower⟩, hchars, hending⟩
    rintro rfl
    cases hc

theorem isDnsLabel_iff : isDnsLabel s = true ↔ IsLabel s := by
  have hchecks : isDnsLabel s = true ↔ s ≠ "" ∧ s.utf8ByteSize ≤ maxNameLength ∧
      s.toList.all isNameChar = true ∧ s.toList.head? ≠ some '-' ∧
        s.toList.getLast? ≠ some '-' := by
    simp only [isDnsLabel, Bool.and_eq_true, decide_eq_true_eq, and_assoc]
  rw [hchecks, List.all_eq_true]
  constructor
  · rintro ⟨hne, hsize, hchars, hstart, hending⟩
    rw [utf8ByteSize_eq_length hchars] at hsize
    exact ⟨hne, hsize, hchars, hstart, hending⟩
  · rintro ⟨hne, hlength, hchars, hstart, hending⟩
    rw [← utf8ByteSize_eq_length hchars] at hlength
    exact ⟨hne, hlength, hchars, hstart, hending⟩

theorem IsLabel.isBlank_eq_false (h : IsLabel s) : Text.isBlank s = false := by
  have hspace : ∀ n < 128, isNameChar (Char.ofNat n) = true →
      Text.isSpace (Char.ofNat n) = false := by decide +kernel
  obtain ⟨c, hc⟩ := List.exists_mem_of_ne_nil s.toList (by simpa using h.nonempty)
  have hfalse : Text.isSpace c = false :=
    of_isNameChar (p := fun c => Text.isSpace c = false) hspace (h.chars c hc)
  exact List.all_eq_false.mpr ⟨c, hc, Bool.eq_false_iff.mp hfalse⟩

end Names
end Provision
