import Mathlib.Logic.Basic
import Provision.Proofs.Json.Literals

/-!
The numbers and strings that are taken in are those that the grammar has. What has been taken in so
far is known by the part that is under way.
-/
namespace Provision.Json

section Numbers

variable {cs ds : List Char}

theorem Digits.concat (h : ∀ c ∈ cs, c.isDigit = true) {d : Char} (hd : d.isDigit = true) :
    Digits (cs ++ [d]) :=
  ⟨List.append_ne_nil_of_right_ne_nil _ (List.cons_ne_nil d []), by
    simpa only [List.forall_mem_append, List.forall_mem_singleton] using ⟨h, hd⟩⟩

theorem digits_singleton {d : Char} (hd : d.isDigit = true) : Digits [d] :=
  ⟨List.cons_ne_nil d [], List.forall_mem_singleton.mpr hd⟩

theorem exists_digitChar {c : Char} (h : c.isDigit = true) : ∃ d :
    Fin 10, Nat.digitChar d.val = c := by
  obtain ⟨hle, hge⟩ := Char.isDigit_iff_toNat.mp h
  have hlt : c.toNat - '0'.toNat < 10 := Nat.sub_lt_left_of_lt_add hle (Nat.lt_succ_of_le hge)
  refine ⟨⟨c.toNat - '0'.toNat, hlt⟩, Char.toNat_inj.mp ?_⟩
  rw [Nat.toNat_digitChar_of_lt_ten hlt]
  exact Nat.add_sub_cancel' hle

theorem exists_map_digitChar (h : ∀ c ∈ cs, c.isDigit = true) :
    ∃ ds : List (Fin 10), cs = ds.map fun d => Nat.digitChar d.val := by
  induction cs with
  | nil => exact ⟨[], rfl⟩
  | cons c cs ih =>
    obtain ⟨d, rfl⟩ := exists_digitChar (h c List.mem_cons_self)
    obtain ⟨ds, rfl⟩ := ih fun c hc => h c (List.mem_cons_of_mem _ hc)
    exact ⟨d :: ds, rfl⟩

theorem Digits.spellsFraction (h : Digits cs) : ∃ fs, SpellsFraction ('.' :: cs) fs := by
  obtain ⟨ds, rfl⟩ := exists_map_digitChar h.2
  exact ⟨ds, .some fun hds => h.1 (congrArg (List.map _) hds)⟩

namespace NumberState

/-- The digits before the fraction, with the sign. -/
inductive Front : List Char → Prop
  | mk (negative : Bool) {ds : List Char} (h : Digits ds)
      (hzero : ds.head? = some '0' → ds = ['0']) :
      Front ((if negative then ['-'] else []) ++ ds)

/-- All that may stand before the exponent. -/
inductive Mantissa : List Char → Prop
  | mk {cs fraction : List Char} {fs : List (Fin 10)} (h : Front cs)
      (hfraction : SpellsFraction fraction fs) :
      Mantissa (cs ++ fraction)

/-- The characters of a number of which this part is under way. -/
inductive After : NumberPart → List Char → Prop
  | sign : After .sign ['-']
  | zero (negative : Bool) : After .zero ((if negative then ['-'] else []) ++ ['0'])
  | whole (negative : Bool) {ds : List Char} (h : Digits ds) (hzero : ds.head? ≠ some '0') :
      After .whole ((if negative then ['-'] else []) ++ ds)
  | point {cs : List Char} (h : Front cs) : After .point (cs ++ ['.'])
  | fraction {cs ds : List Char} (h : Front cs) (hds : Digits ds) :
      After .fraction (cs ++ '.' :: ds)
  | mark {cs : List Char} {m : Char} (h : Mantissa cs) (hm : isMark m = true) :
      After .mark (cs ++ [m])
  | markSign {cs : List Char} {m c : Char} (h : Mantissa cs) (hm : isMark m = true)
      (hc : c = '+' ∨ c = '-') :
      After .markSign (cs ++ [m, c])
  | exponent {cs exponent : List Char} {e : Int} (h : Mantissa cs)
      (hexponent : SpellsExponent exponent (some e)) :
      After .exponent (cs ++ exponent)

theorem front_zero (negative : Bool) : Front ((if negative then ['-'] else []) ++ ['0']) :=
  .mk negative (digits_singleton rfl) fun _ => rfl

theorem Front.mantissa (h : Front cs) : Mantissa cs := by
  have hmantissa := Mantissa.mk h .none
  rwa [List.append_nil] at hmantissa

theorem After.front {part : NumberPart} (h : After part cs) (hpart : part = .zero ∨ part = .whole) :
    Front cs := by
  cases h with
  | zero negative => exact front_zero negative
  | whole negative h hzero => exact .mk negative h fun h => absurd h hzero
  | sign | point | fraction | mark | markSign | exponent => simp at hpart

theorem After.mantissa {part : NumberPart} (h : After part cs)
    (hpart : part = .zero ∨ part = .whole ∨ part = .fraction) : Mantissa cs := by
  obtain hpart | rfl := or_assoc.mpr hpart
  · exact (h.front hpart).mantissa
  · cases h with
    | fraction h hds =>
      obtain ⟨fs, hfs⟩ := hds.spellsFraction
      exact .mk h hfs

theorem exponent_concat {e : Int} (h : SpellsExponent cs (some e)) {d : Char}
    (hd : d.isDigit = true) :
    ∃ e' : Int, SpellsExponent (cs ++ [d]) (some e') := by
  cases h with
  | plain hm h => exact ⟨_, .plain hm (.concat h.2 hd)⟩
  | plus hm h => exact ⟨_, .plus hm (.concat h.2 hd)⟩
  | minus hm h => exact ⟨_, .minus hm (.concat h.2 hd)⟩

/-- How a number may go on, whatever its value. -/
inductive Turn : NumberPart → Char → NumberPart → Prop
  | zero : Turn .sign '0' .zero
  | first {d : Char} (hd : d.isDigit = true) (hzero : d ≠ '0') : Turn .sign d .whole
  | whole {d : Char} (hd : d.isDigit = true) : Turn .whole d .whole
  | point {part : NumberPart} (hpart : part = .zero ∨ part = .whole) : Turn part '.' .point
  | fraction {part : NumberPart} {d : Char} (hpart : part = .point ∨ part = .fraction)
      (hd : d.isDigit = true) :
      Turn part d .fraction
  | mark {part : NumberPart} {m : Char} (hpart : part = .zero ∨ part = .whole ∨ part = .fraction)
      (hm : isMark m = true) : Turn part m .mark
  | markSign {c : Char} (hc : c = '+' ∨ c = '-') : Turn .mark c .markSign
  | exponent {part : NumberPart} {d : Char}
      (hpart : part = .mark ∨ part = .markSign ∨ part = .exponent) (hd : d.isDigit = true) :
      Turn part d .exponent

theorem turn_of_step {s t : NumberState} {c : Char} (h : s.step c = .ok (some t)) :
    Turn s.part c t.part := by
  obtain ⟨part, negative, whole, fraction, exponentNegative, exponent⟩ := s
  cases part <;> simp only [NumberState.step] at h <;> repeat' split at h
  all_goals cases h
  case sign.isTrue hc => exact hc ▸ .zero
  case sign.isFalse.isTrue hc hd => exact .first hd hc
  case zero.isFalse.isTrue hc => exact hc ▸ .point (.inl rfl)
  case zero.isFalse.isFalse.isTrue hm => exact .mark (.inl rfl) hm
  case whole.isTrue hd => exact .whole hd
  case whole.isFalse.isTrue hc => exact hc ▸ .point (.inr rfl)
  case whole.isFalse.isFalse.isTrue hm => exact .mark (.inr (.inl rfl)) hm
  case point.isTrue hd => exact .fraction (.inl rfl) hd
  case fraction.isTrue hd => exact .fraction (.inr rfl) hd
  case fraction.isFalse.isTrue hm => exact .mark (.inr (.inr rfl)) hm
  case mark.isTrue hc => exact .markSign (.inl hc)
  case mark.isFalse.isTrue hc => exact .markSign (.inr hc)
  case mark.isFalse.isFalse.isTrue hd => exact .exponent (.inl rfl) hd
  case markSign.isTrue hd => exact .exponent (.inr (.inl rfl)) hd
  case exponent.isTrue hd => exact .exponent (.inr (.inr rfl)) hd

/-- One more character of a number. -/
theorem After.turn {part part' : NumberPart} (h : After part cs) {c : Char}
    (hturn : Turn part c part') :
    After part' (cs ++ [c]) := by
  cases hturn with
  | zero => cases h with | sign => exact .zero true
  | first hd hzero =>
    cases h with
    | sign => exact .whole true (digits_singleton hd) fun he => hzero (Option.some.inj he)
  | whole hd =>
    cases h with
    | whole negative h hzero =>
      rw [List.append_assoc]
      refine .whole negative (.concat h.2 hd) ?_
      rwa [List.head?_append, Option.or_of_isSome (List.isSome_head?.mpr h.1)]
  | point hpart => exact .point (h.front hpart)
  | fraction hpart hd =>
    cases h with
    | point h =>
      rw [List.append_assoc]
      exact .fraction h (digits_singleton hd)
    | fraction h hds =>
      rw [List.append_assoc]
      exact .fraction h (.concat hds.2 hd)
    | sign | zero | whole | mark | markSign | exponent => simp at hpart
  | mark hpart hm => exact .mark (h.mantissa hpart) hm
  | markSign hc =>
    cases h with
    | mark h hm =>
      rw [List.append_assoc]
      exact .markSign h hm hc
  | exponent hpart hd =>
    cases h with
    | mark h hm =>
      rw [List.append_assoc]
      exact .exponent h (.plain hm (digits_singleton hd))
    | markSign h hm hc =>
      rw [List.append_assoc]
      obtain rfl | rfl := hc
      · exact .exponent h (.plus hm (digits_singleton hd))
      · exact .exponent h (.minus hm (digits_singleton hd))
    | exponent h hexponent =>
      obtain ⟨e, he⟩ := exponent_concat hexponent hd
      rw [List.append_assoc]
      exact .exponent h he
    | sign | zero | whole | point | fraction => simp at hpart

theorem after_of_start? {c : Char} {s : NumberState} (h : start? c = some s) :
    After s.part [c] := by
  obtain ⟨rfl, ⟨⟩⟩ | ⟨-, h⟩ := ite_eq_iff.mp h
  · exact .sign
  obtain ⟨rfl, ⟨⟩⟩ | ⟨hzero, h⟩ := ite_eq_iff.mp h
  · exact .zero false
  obtain ⟨hd, ⟨⟩⟩ | ⟨-, ⟨⟩⟩ := ite_eq_iff.mp h
  exact .whole false (digits_singleton hd) fun he => hzero (Option.some.inj he)

theorem isComplete_of_step {s : NumberState} {c : Char} (h : s.step c = .ok none) :
    s.isComplete = true := by
  obtain ⟨part, negative, whole, fraction, exponentNegative, exponent⟩ := s
  cases part with
  | zero | whole | fraction | exponent => rfl
  | sign | point | mark | markSign =>
    simp only [NumberState.step] at h
    repeat' split at h
    all_goals cases h

theorem Mantissa.spellsNumber (h : Mantissa cs) {exponent : List Char} {e : Option Int}
    (hexponent : SpellsExponent exponent e) : ∃ n, SpellsNumber (cs ++ exponent) n := by
  obtain ⟨⟨negative, hds, hzero⟩, hfraction⟩ := h
  simp only [List.append_assoc]
  exact ⟨_, .mk negative hds hzero hfraction hexponent⟩

theorem After.spellsNumber {s : NumberState} (h : After s.part cs) (hs : s.isComplete = true) :
    ∃ n, SpellsNumber cs n := by
  generalize hpart : s.part = part at h
  have hmantissa {cs : List Char} (h : Mantissa cs) : ∃ n, SpellsNumber cs n := by
    have hn := h.spellsNumber .none
    rwa [List.append_nil] at hn
  simp only [isComplete, hpart] at hs
  cases part with
  | zero => exact hmantissa (h.mantissa (.inl rfl))
  | whole => exact hmantissa (h.mantissa (.inr (.inl rfl)))
  | fraction => exact hmantissa (h.mantissa (.inr (.inr rfl)))
  | exponent => cases h with | exponent h hexponent => exact h.spellsNumber hexponent
  | sign | point | mark | markSign => cases hs

theorem takes_unique {s t u : NumberState} (h : s.Takes cs t) (h' : s.Takes cs u) : t = u :=
  Path.unique (fun _ _ _ _ ht hu => Option.some.inj (Except.ok.inj (ht.symm.trans hu))) h h'

/-- What has been taken in, up to where the number may end, spells it. -/
theorem spellsNumber_of_takes {c : Char} {s t : NumberState} (hs : start? c = some s)
    (h : s.Takes cs t) (ht : t.isComplete = true) : SpellsNumber (c :: cs) t.numeral := by
  have hafter : After t.part ([c] ++ cs) :=
    Path.keeps (P := fun s cs => After s.part cs)
      (fun _ _ _ _ hs hstep => hs.turn (turn_of_step hstep)) h
      (after_of_start? hs)
  obtain ⟨n, hn⟩ := hafter.spellsNumber ht
  obtain ⟨c', cs', s', t', he, hs', h', -, rfl⟩ := exists_takes hn
  obtain ⟨rfl, rfl⟩ := List.cons.inj he
  obtain rfl := Option.some.inj (hs.symm.trans hs')
  obtain rfl := takes_unique h h'
  exact hn

end NumberState
end Numbers

section Strings

theorem SpellsPieces.concat {cs ds : List Char} {ps : List Piece}
    (h : SpellsPieces cs ps) {p : Piece} (hp : SpellsPiece ds p) :
    SpellsPieces (cs ++ ds) (ps ++ [p]) := by
  induction h with
  | nil =>
    have hpieces := SpellsPieces.cons hp .nil
    rwa [List.append_nil] at hpieces
  | cons hq _ ih =>
    rw [List.append_assoc]
    exact .cons hq ih

namespace StringState

/-- The characters of a string of which this part is under way, after the quote. -/
inductive After : StringPart → List Char → Prop
  | plain {cs : List Char} {ps : List Piece} (h : SpellsPieces cs ps) : After .plain cs
  | escape {cs : List Char} {ps : List Piece} (h : SpellsPieces cs ps) :
      After .escape (cs ++ ['\\'])
  | hex {cs ds : List Char} {ps : List Piece} (h : SpellsPieces cs ps)
      (hds : Text.byteLength ds < 4) :
      After (.hex ds) (cs ++ '\\' :: 'u' :: ds)

variable {cs : List Char} {s t : StringState} {c : Char}

/-- Where the digits of a code unit end there are four. -/
theorem length_of_hexValue? {ds : List Char} {n : Nat} (hds : Text.byteLength ds < 4)
    (hc : ¬Text.byteLength (ds ++ [c]) < 4) (h : Text.hexValue? (ds ++ [c]) = some n) :
    (ds ++ [c]).length = 4 := by
  have hwidth := Text.utf8Size_of_hexValue? h
  have hlength := Text.byteLength_eq_length hwidth
  have hlast : Text.byteLength (ds ++ [c]) = Text.byteLength ds + 1 := by
    rw [Text.byteLength_append, Text.byteLength_cons,
      hwidth c (List.mem_append_right ds List.mem_cons_self)]
    rfl
  omega

/-- One more character of a string that goes on. -/
theorem After.step (h : After s.part cs) (hstep : s.step c = .ok (.inl t)) :
    After t.part (cs ++ [c]) := by
  generalize hpart : s.part = part at h
  cases h with
  | plain h =>
    simp only [StringState.step, hpart] at hstep
    obtain ⟨-, ⟨⟩⟩ | ⟨hquote, hstep⟩ := ite_eq_iff.mp hstep
    obtain ⟨rfl, ⟨⟩⟩ | ⟨hslash, hstep⟩ := ite_eq_iff.mp hstep
    · exact .escape h
    obtain ⟨-, ⟨⟩⟩ | ⟨hcontrol, ⟨⟩⟩ := ite_eq_iff.mp hstep
    rw [part_push]
    exact .plain (h.concat (.plain hquote hslash hcontrol))
  | escape h =>
    simp only [StringState.step, hpart] at hstep
    rw [List.append_assoc]
    obtain ⟨rfl, ⟨⟩⟩ | ⟨-, hstep⟩ := ite_eq_iff.mp hstep
    · exact .hex h (by decide)
    cases hshort : shortEscape? c with
    | none => simp [hshort] at hstep
    | some d =>
      simp only [hshort] at hstep
      cases hstep
      rw [part_push]
      exact .plain (h.concat (.short hshort))
  | @hex cs ds ps h hds =>
    simp only [StringState.step, hpart] at hstep
    rw [List.append_assoc]
    obtain ⟨hlt, ⟨⟩⟩ | ⟨hge, hstep⟩ := ite_eq_iff.mp hstep
    · exact .hex h hlt
    cases hvalue : Text.hexValue? (ds ++ [c]) with
    | none => simp [hvalue] at hstep
    | some n =>
      simp only [hvalue] at hstep
      cases hstep
      rw [part_unit]
      exact .plain (h.concat (.unit (length_of_hexValue? hds hge hvalue) hvalue))

/-- Only a quote ends a string, and not in an escape. -/
theorem ends_of_step {v : Str} (h : s.step c = .ok (.inr v)) : c = '"' ∧ s.part = .plain := by
  cases hpart : s.part with
  | plain =>
    simp only [StringState.step, hpart] at h
    obtain ⟨rfl, -⟩ | ⟨-, h⟩ := ite_eq_iff.mp h
    · exact ⟨rfl, rfl⟩
    repeat' split at h
    all_goals cases h
  | escape | hex =>
    simp only [StringState.step, hpart] at h
    repeat' split at h
    all_goals cases h

theorem takes_unique {s t u : StringState} (h : s.Takes cs t) (h' : s.Takes cs u) : t = u :=
  Path.unique (fun _ _ _ _ ht hu => Sum.inl.inj (Except.ok.inj (ht.symm.trans hu))) h h'

/-- What has been taken in between two quotes spells the string. -/
theorem spellsStr_of_takes {v : Str} (h : start.Takes cs t) (hend : t.step c = .ok (.inr v)) :
    SpellsStr ('"' :: (cs ++ [c])) v := by
  obtain ⟨rfl, hpart⟩ := ends_of_step hend
  have hafter : After t.part ([] ++ cs) :=
    Path.keeps (P := fun s cs => After s.part cs) (fun _ _ _ _ hs hstep => hs.step hstep)
      h (.plain .nil)
  rw [hpart] at hafter
  cases hafter with
  | plain hpieces =>
    have hspells := SpellsStr.mk hpieces
    obtain ⟨ds, u, he, h', hend'⟩ := exists_takes hspells
    obtain rfl : cs = ds := List.append_cancel_right (List.cons.inj he).2
    obtain rfl := takes_unique h h'
    obtain rfl := Sum.inr.inj (Except.ok.inj (hend.symm.trans hend'))
    exact hspells

end StringState
end Strings

end Provision.Json
