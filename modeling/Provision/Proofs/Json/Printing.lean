import Provision.Json.Printer
import Provision.Proofs.Json.Reading

/-!
What is written is a JSON text of the value, in either layout, and so it is read back as the value.
-/
namespace Provision.Json

section Numbers

theorem head?_toDigits {n : Nat} (h : (Nat.toDigits 10 n).head? = some '0') : n = 0 := by
  induction n using Nat.strongRecOn with
  | ind n ih =>
    by_cases hn : n < 10
    · rw [Nat.toDigits_of_lt_base hn] at h
      match n, hn with
      | 0, _ => rfl
      | 1, _ | 2, _ | 3, _ | 4, _ | 5, _ | 6, _ | 7, _ | 8, _ | 9, _ => exact absurd h (by decide)
    · rw [Nat.toDigits_of_base_le (by decide) (by omega)] at h
      cases hcs : Nat.toDigits 10 (n / 10) with
      | nil => exact absurd hcs Nat.toDigits_ne_nil
      | cons c cs =>
        rw [hcs] at h
        have := ih (n / 10) (by omega) (hcs ▸ h)
        omega

theorem digits_toDigits (n : Nat) : Digits (Nat.toDigits 10 n) :=
  ⟨Nat.toDigits_ne_nil, fun _ => Nat.isDigit_of_mem_toDigits (by decide) (by decide)⟩

theorem ofDigits_toDigits (n : Nat) : ofDigits (Nat.toDigits 10 n) = n :=
  Nat.ofDigitChars_ten_toDigits

theorem toDigits_of_head? {n : Nat} (h : (Nat.toDigits 10 n).head? = some '0') :
    Nat.toDigits 10 n = ['0'] := by
  rw [head?_toDigits h]
  rfl

theorem spellsFraction_write (fs : List (Fin 10)) :
    SpellsFraction
      (if fs.isEmpty then [] else '.' :: fs.map fun d => Char.ofNat ('0'.toNat + d.val)) fs := by
  have hdigit : ∀ d : Fin 10, Char.ofNat ('0'.toNat + d.val) = Nat.digitChar d.val := by decide
  simp only [hdigit]
  cases fs with
  | nil => exact .none
  | cons f fs => exact .some (List.cons_ne_nil f fs)

theorem spellsExponent_write (e : Int) :
    SpellsExponent ('e' :: ((if e < 0 then ['-'] else []) ++ Nat.toDigits 10 e.natAbs))
      (some e) := by
  by_cases he : e < 0
  · have hspells := SpellsExponent.minus (m := 'e') rfl (digits_toDigits e.natAbs)
    rw [ofDigits_toDigits, show -(e.natAbs : Int) = e by omega] at hspells
    rwa [if_pos he]
  · have hspells := SpellsExponent.plain (m := 'e') rfl (digits_toDigits e.natAbs)
    rw [ofDigits_toDigits, show (e.natAbs : Int) = e by omega] at hspells
    rwa [if_neg he]

theorem spellsNumber_write (n : Numeral) : SpellsNumber n.write n := by
  obtain ⟨negative, whole, fs, e⟩ := n
  have hspells {exponent : List Char} {e : Option Int} (he : SpellsExponent exponent e) :=
    SpellsNumber.mk negative (digits_toDigits whole) toDigits_of_head? (spellsFraction_write fs) he
  rw [ofDigits_toDigits] at hspells
  simp only [Numeral.write, List.append_assoc]
  cases e with
  | none => exact hspells .none
  | some e => exact hspells (spellsExponent_write e)

end Numbers

section Strings

/-- The code of a control character, in four digits. -/
theorem hexValue?_hexLetters {n : Nat} (h : n < 0x20) :
    Text.hexValue? ['0', '0', Text.hexLetter (n / 16), Text.hexLetter (n % 16)] = some n := by
  have hzero : Text.hexDigit? '0' = some 0 := rfl
  have hsum : 16 * (n / 16) + n % 16 = n := Nat.div_add_mod ..
  simp only [Text.hexValue?, List.foldlM_cons, List.foldlM_nil, hzero, Option.map_some,
    Text.hexDigit?_hexLetter (n / 16) (by omega), Text.hexDigit?_hexLetter (n % 16) (by omega),
    Option.bind_eq_bind, Option.bind_some, Nat.mul_zero, Nat.zero_add, hsum]
  rfl

/-- A character is written as one piece, which is that character. -/
theorem spellsPiece_escapeChar (c : Char) :
    ∃ p, SpellsPiece (escapeChar c) p ∧ ∀ ps, meaning (p :: ps) = (meaning ps).map (c :: ·) := by
  have hshort {e : Char} (he : StringState.shortEscape? e = some c) :
      ∃ p, SpellsPiece ['\\', e] p ∧ ∀ ps, meaning (p :: ps) = (meaning ps).map (c :: ·) :=
    ⟨.char c, .short he, fun _ => rfl⟩
  unfold escapeChar
  split
  next hc => exact hshort (congrArg some hc.symm)
  split
  next hc => exact hshort (congrArg some hc.symm)
  split
  next hc => exact hshort (congrArg some hc.symm)
  split
  next hc => exact hshort (congrArg some hc.symm)
  split
  next hc => exact hshort (congrArg some hc.symm)
  split
  next hc => exact hshort (congrArg some hc.symm)
  split
  next hc => exact hshort (congrArg some hc.symm)
  split
  next hc =>
    refine ⟨.unit c.toNat, .unit rfl (hexValue?_hexLetters hc), fun ps => ?_⟩
    have hfirst : isFirstHalf c.toNat = false := by
      simp only [isFirstHalf, Bool.and_eq_false_iff, decide_eq_false_iff_not]
      omega
    have hsecond : isSecondHalf c.toNat = false := by
      simp only [isSecondHalf, Bool.and_eq_false_iff, decide_eq_false_iff_not]
      omega
    rw [meaning_whole hfirst hsecond, Char.ofNat_toNat]
  next hquote hslash _ _ _ _ _ hcontrol =>
    exact ⟨.char c, .plain hquote hslash hcontrol, fun _ => rfl⟩

theorem spellsPieces_flatMap (cs : List Char) :
    ∃ ps, SpellsPieces (cs.flatMap escapeChar) ps ∧ meaning ps = .ok cs := by
  induction cs with
  | nil => exact ⟨[], .nil, rfl⟩
  | cons c cs ih =>
    obtain ⟨p, hp, hmeaning⟩ := spellsPiece_escapeChar c
    obtain ⟨ps, hps, hrest⟩ := ih
    refine ⟨p :: ps, .cons hp hps, ?_⟩
    rw [hmeaning, hrest]
    rfl

theorem spellsStr_write {s : Str} (h : s ≠ .error .encoding) : SpellsStr (writeStr s) s := by
  match s, h with
  | .ok s, _ =>
    obtain ⟨ps, hps, hmeaning⟩ := spellsPieces_flatMap s.toList
    have hspells := SpellsStr.mk hps
    rwa [hmeaning, Except.map, String.ofList_toList] at hspells
  | .error .lone, _ =>
    have hunit : SpellsPiece ['\\', 'u', 'd', 'c', '0', '0'] (.unit 0xDC00) := .unit rfl rfl
    exact .mk (.cons hunit .nil)
  | .error .unpaired, _ =>
    have hunit : SpellsPiece ['\\', 'u', 'd', '8', '0', '0'] (.unit 0xD800) := .unit rfl rfl
    exact .mk (.cons hunit .nil)

end Strings

/-- Every string in the value is one that a text can hold. -/
inductive Textual : Json → Prop
  | null : Textual .null
  | bool (b : Bool) : Textual (.bool b)
  | number (n : Numeral) : Textual (.number n)
  | string {s : Str} (h : s ≠ .error .encoding) : Textual (.string s)
  | array {vs : List Json} (h : ∀ v ∈ vs, Textual v) : Textual (.array vs)
  | object {ms : List (Str × Json)} (hnames : ∀ m ∈ ms, m.1 ≠ .error .encoding)
      (h : ∀ m ∈ ms, Textual m.2) :
      Textual (.object ms)

section Parts

theorem space_lineBreak (l : Layout) : Space l.lineBreak := by
  cases l with
  | compact => exact space_nil
  | indented d =>
    exact List.forall_mem_cons.mpr ⟨rfl, fun c hc => (List.mem_replicate.mp hc).2 ▸ rfl⟩

/-- What stands between a colon and the value. -/
def Layout.colonSpace : Layout → List Char
  | .compact => []
  | .indented _ => [' ']

theorem colon_eq (l : Layout) : l.colon = ':' :: l.colonSpace := by cases l <;> rfl

theorem space_colonSpace (l : Layout) : Space l.colonSpace := by
  cases l with
  | compact => exact space_nil
  | indented d => exact List.forall_mem_singleton.mpr rfl

/-- Items as they are written, up to what stands before the closing bracket. -/
theorem exists_parts (l : Layout) {last : List Char} (hlast : Space last)
    (v : Json) (vs : List Json) (h : ∀ w ∈ v :: vs, Spells (w.write l) w) :
    ∃ (p : Part) (ps : List Part), (p :: ps).map Part.value = v :: vs ∧
      (∀ q ∈ p :: ps, q.IsSpaced) ∧
      (∀ q ∈ p :: ps, Spells q.text q.value) ∧
      p.chars ++ ps.flatMap (fun q => ',' :: q.chars) = l.lineBreak ++
        (v.write l ++ (writeItems l vs ++ last)) := by
  induction vs generalizing v with
  | nil =>
    refine ⟨⟨l.lineBreak, v.write l, last, v⟩, [], rfl,
      List.forall_mem_singleton.mpr ⟨space_lineBreak l, hlast⟩,
      List.forall_mem_singleton.mpr (h v List.mem_cons_self), ?_⟩
    simp only [Part.chars, writeItems, List.flatMap_nil, List.append_nil, List.nil_append]
  | cons w vs ih =>
    obtain ⟨q, qs, hvalues, hspaced, hspells, hchars⟩ :=
      ih w fun u hu => h u (List.mem_cons_of_mem _ hu)
    refine ⟨⟨l.lineBreak, v.write l, [], v⟩, q :: qs, congrArg (v :: ·) hvalues,
      List.forall_mem_cons.mpr ⟨⟨space_lineBreak l, space_nil⟩, hspaced⟩,
      List.forall_mem_cons.mpr ⟨h v List.mem_cons_self, hspells⟩, ?_⟩
    rw [List.flatMap_cons, List.cons_append, hchars]
    simp only [Part.chars, writeItems, List.append_nil, List.append_assoc, List.cons_append]

/-- Members as they are written, up to what stands before the closing brace. -/
theorem exists_members (l : Layout) {last : List Char} (hlast : Space last) (m : Str × Json)
    (ms : List (Str × Json)) (hnames : ∀ n ∈ m :: ms, n.1 ≠ .error .encoding)
    (h : ∀ n ∈ m :: ms, Spells (n.2.write l) n.2) :
    ∃ (p : Member) (ps : List Member), (p :: ps).map Member.entry = m :: ms ∧
      (∀ q ∈ p :: ps, q.IsNamed) ∧
      (∀ q ∈ p :: ps, q.toPart.IsSpaced) ∧ (∀ q ∈ p :: ps, Spells q.text q.value) ∧
      p.chars ++ ps.flatMap (fun q => ',' :: q.chars) =
        l.lineBreak ++
          (writeStr m.1 ++ (l.colon ++ (m.2.write l ++ (writeMembers l ms ++ last)))) := by
  have hname : SpellsStr (writeStr m.1) m.1 := spellsStr_write (hnames m List.mem_cons_self)
  induction ms generalizing m with
  | nil =>
    refine ⟨⟨⟨l.colonSpace, m.2.write l, last, m.2⟩, l.lineBreak, writeStr m.1, [], m.1⟩, [], rfl,
      List.forall_mem_singleton.mpr ⟨space_lineBreak l, hname, space_nil⟩,
      List.forall_mem_singleton.mpr ⟨space_colonSpace l, hlast⟩,
      List.forall_mem_singleton.mpr (h m List.mem_cons_self), ?_⟩
    simp only [Member.chars, Part.chars, writeMembers, colon_eq, List.flatMap_nil,
      List.append_nil, List.nil_append,
      List.cons_append]
  | cons n ms ih =>
    obtain ⟨q, qs, hentries, hnamed, hspaced, hspells, hchars⟩ :=
      ih n (fun u hu => hnames u (List.mem_cons_of_mem _ hu))
        (fun u hu => h u (List.mem_cons_of_mem _ hu))
        (spellsStr_write (hnames n (List.mem_cons_of_mem _ List.mem_cons_self)))
    refine ⟨⟨⟨l.colonSpace, m.2.write l, [], m.2⟩, l.lineBreak, writeStr m.1, [], m.1⟩, q :: qs,
      congrArg (m :: ·) hentries,
      List.forall_mem_cons.mpr ⟨⟨space_lineBreak l, hname, space_nil⟩, hnamed⟩,
      List.forall_mem_cons.mpr ⟨⟨space_colonSpace l, space_nil⟩, hspaced⟩,
      List.forall_mem_cons.mpr ⟨h m List.mem_cons_self, hspells⟩, ?_⟩
    rw [List.flatMap_cons, List.cons_append, hchars]
    simp only [Member.chars, Part.chars, writeMembers, colon_eq, List.append_nil, List.nil_append,
      List.append_assoc,
      List.cons_append]

end Parts

/-- What is written spells the value. -/
theorem spells_write {v : Json} (h : v.Textual) (l : Layout) : Spells (v.write l) v := by
  induction h generalizing l with
  | null =>
    rw [write]
    exact .null
  | bool b =>
    cases b <;> rw [write]
    · exact .false
    · exact .true
  | number n =>
    rw [write]
    exact .number (spellsNumber_write n)
  | string h =>
    rw [write]
    exact .string (spellsStr_write h)
  | @array vs _ ih =>
    cases vs with
    | nil =>
      rw [write]
      exact .noItems space_nil
    | cons v vs =>
      obtain ⟨p, ps, hvalues, hspaced, hspells, hchars⟩ :=
        exists_parts l.inner (space_lineBreak l) v vs fun w hw => ih w hw l.inner
      have hwhole := Spells.items hspaced hspells
      rw [hvalues, ← List.append_assoc, hchars] at hwhole
      simpa only [write, List.append_assoc, List.cons_append] using hwhole
  | @object ms hnames _ ih =>
    cases ms with
    | nil =>
      rw [write]
      exact .noMembers space_nil
    | cons m ms =>
      obtain ⟨p, ps, hentries, hnamed, hspaced, hspells, hchars⟩ :=
        exists_members l.inner (space_lineBreak l) m ms hnames fun n hn => ih n hn l.inner
      have hwhole := Spells.members hnamed hspaced hspells
      rw [hentries, ← List.append_assoc, hchars] at hwhole
      simpa only [write, List.append_assoc, List.cons_append] using hwhole

/-- The text of a value stands for it, in either layout. -/
theorem standsFor_write {v : Json} (h : v.Textual) (l : Layout) :
    StandsFor (String.ofList (v.write l)) v := by
  refine ⟨[], v.write l, [], space_nil, space_nil, spells_write h l, ?_⟩
  rw [String.toList_ofList, List.append_nil]
  rfl

end Provision.Json
