import Provision.Proofs.Json.Grammar

/-!
Numbers and strings are taken in from the left, one character after the other, and come to what they
spell. A number ends where something follows that may stand after a value, a string with its last
quote.
-/
namespace Provision.Json

/-- What may follow a value: white space, the next part, or the end of what holds it. -/
def Follows (c : Char) : Prop := isWhite c = true ∨ c = ',' ∨ c = ']' ∨ c = '\x7d'

theorem follows_iff {c : Char} :
    Follows c ↔ c = ' ' ∨ c = '\n' ∨ c = '\t' ∨ c = '\r' ∨ c = ',' ∨ c = ']' ∨ c = '\x7d' := by
  simp only [Follows, isWhite, Bool.or_eq_true, decide_eq_true_eq, or_assoc]

/-- Characters lead from one state to another, one step after the other. -/
inductive Path {σ : Type} (Goes : σ → Char → σ → Prop) : σ → List Char → σ → Prop
  | nil (s : σ) : Path Goes s [] s
  | cons {s t u : σ} {c : Char} {cs : List Char} (h : Goes s c t) (h' : Path Goes t cs u) :
      Path Goes s (c :: cs) u

namespace Path

variable {σ τ : Type} {Goes : σ → Char → σ → Prop} {s t u : σ} {cs ds : List Char}

theorem append (h : Path Goes s cs t) (h' : Path Goes t ds u) : Path Goes s (cs ++ ds) u := by
  induction h with
  | nil => exact h'
  | cons hstep _ ih => exact .cons hstep (ih h')

theorem map {Goes' : τ → Char → τ → Prop} {f : σ → τ}
    (hf : ∀ s c t, Goes s c t → Goes' (f s) c (f t)) (h : Path Goes s cs t) :
    Path Goes' (f s) cs (f t) := by
  induction h with
  | nil => exact .nil _
  | cons hstep _ ih => exact .cons (hf _ _ _ hstep) ih

theorem concat {c : Char} (h : Path Goes s cs t) (hc : Goes t c u) : Path Goes s (cs ++ [c]) u :=
  h.append (.cons hc (.nil u))

/-- What every step keeps, of a state and the characters before it, is kept all the way. -/
theorem keeps {P : σ → List Char → Prop} (hstep : ∀ s t c cs, P s cs → Goes s c t → P t (cs ++ [c]))
    (h : Path Goes s ds t) (hs : P s cs) : P t (cs ++ ds) := by
  induction h generalizing cs with
  | nil =>
    rw [List.append_nil]
    exact hs
  | @cons s t u c ds hc _ ih =>
    rw [← List.singleton_append, ← List.append_assoc]
    exact ih (hstep s t c cs hs hc)

theorem unique (hgoes : ∀ s c t u, Goes s c t → Goes s c u → t = u) (h : Path Goes s cs t)
    (h' : Path Goes s cs u) :
    t = u := by
  induction h with
  | nil => cases h' with | nil => rfl
  | cons hc _ ih =>
    cases h' with
    | cons hc' hrest =>
      obtain rfl := hgoes _ _ _ _ hc hc'
      exact ih hrest

end Path

namespace NumberState

/-- The number goes on over characters. -/
abbrev Takes : NumberState → List Char → NumberState → Prop :=
  Path fun s c t => s.step c = .ok (some t)

/-- A number that may end does so before whatever follows it. -/
theorem step_of_follows {s : NumberState} (hs : s.isComplete = true) {c : Char} (hc : Follows c) :
    s.step c = .ok none := by
  obtain ⟨part, negative, whole, fraction, exponentNegative, exponent⟩ := s
  have hdigit : c.isDigit = false ∧ c ≠ '.' ∧ isMark c = false := by
    obtain rfl | rfl | rfl | rfl | rfl | rfl | rfl := follows_iff.mp hc <;> decide
  obtain ⟨hd, hp, hm⟩ := hdigit
  cases part with
  | zero | whole | fraction | exponent => simp only [step, hd, hp, hm, Bool.false_eq_true, if_false]
  | sign | point | mark | markSign => cases hs

/-- A number of which the first digit has been read. -/
def opened (negative : Bool) (d : Char) : NumberState :=
  ⟨if d = '0' then .zero else .whole, negative, digit d, [], false, 0⟩

theorem start?_of_isDigit {d : Char} (h : d.isDigit = true) : start? d = some (opened false d) := by
  have hsign : d ≠ '-' := by
    rintro rfl
    exact absurd h (by decide)
  by_cases hd : d = '0'
  · subst hd
    rfl
  · simp only [start?, opened, hsign, hd, h, if_false, if_true]

theorem step_sign_of_isDigit {d : Char} (h : d.isDigit = true) :
    step ⟨.sign, true, 0, [], false, 0⟩ d = .ok (some (opened true d)) := by
  by_cases hd : d = '0'
  · subst hd
    rfl
  · simp only [step, opened, hd, h, if_false, if_true]

variable {cs : List Char}

theorem takes_whole (h : ∀ c ∈ cs, c.isDigit = true) (negative : Bool) (n : Nat) :
    Takes ⟨.whole, negative, n, [], false, 0⟩ cs
      ⟨.whole, negative, Nat.ofDigitChars 10 cs n, [], false, 0⟩ := by
  induction cs generalizing n with
  | nil => exact .nil _
  | cons c cs ih =>
    rw [Nat.ofDigitChars_cons]
    exact .cons (if_pos (h c List.mem_cons_self))
      (ih (fun d hd => h d (List.mem_cons_of_mem _ hd)) _)

/-- The digits before the fraction. -/
theorem takes_opened {d : Char} (h : Digits (d :: cs))
    (hzero : (d :: cs).head? = some '0' → d :: cs = ['0']) (negative : Bool) :
    ∃ part, (part = .zero ∨ part = .whole) ∧
      (opened negative d).Takes cs ⟨part, negative, ofDigits (d :: cs), [], false, 0⟩ := by
  have hvalue : ofDigits (d :: cs) = Nat.ofDigitChars 10 cs (digit d) := by
    rw [ofDigits, Nat.ofDigitChars_cons, Nat.mul_zero, Nat.zero_add]
    rfl
  by_cases hd : d = '0'
  · subst hd
    obtain ⟨-, rfl⟩ := List.cons.inj (hzero rfl)
    exact ⟨.zero, .inl rfl, .nil _⟩
  · refine ⟨.whole, .inr rfl, ?_⟩
    rw [hvalue, opened, if_neg hd]
    exact takes_whole (fun c hc => h.2 c (List.mem_cons_of_mem _ hc)) negative (digit d)

variable {s : NumberState}

theorem addFraction_digitChar (s : NumberState) (d : Fin 10) :
    (Nat.digitChar d.val).isDigit = true ∧
      s.addFraction (Nat.digitChar d.val) =
        { s with part := .fraction, fraction := d :: s.fraction } := by
  have hdigit : ∀ d : Fin 10,
      (Nat.digitChar d.val).isDigit = true ∧ Fin.ofNat 10 (digit (Nat.digitChar d.val)) = d := by
    decide
  refine ⟨(hdigit d).1, ?_⟩
  rw [addFraction, (hdigit d).2]

theorem takes_fractionDigits (ds fs : List (Fin 10)) :
    Takes { s with part := .fraction, fraction := fs } (ds.map fun d => Nat.digitChar d.val)
      { s with part := .fraction, fraction := ds.reverse ++ fs } := by
  induction ds generalizing fs with
  | nil => exact .nil _
  | cons d ds ih =>
    let reading : NumberState := { s with part := .fraction, fraction := fs }
    obtain ⟨hdigit, hadd⟩ := reading.addFraction_digitChar d
    have hstep :
        reading.step (Nat.digitChar d.val) =
          .ok (some (reading.addFraction (Nat.digitChar d.val))) :=
      if_pos hdigit
    rw [hadd] at hstep
    rw [List.reverse_cons, List.append_assoc]
    exact .cons hstep (ih (d :: fs))

theorem takes_fraction {fs : List (Fin 10)} (h : SpellsFraction cs fs)
    (hpart : s.part = .zero ∨ s.part = .whole) (hnone : s.fraction = []) :
    ∃ part, (part = .zero ∨ part = .whole ∨ part = .fraction) ∧
      s.Takes cs { s with part := part, fraction := fs.reverse } := by
  obtain ⟨part, negative, whole, fraction, exponentNegative, exponent⟩ := s
  subst hnone
  cases h with
  | none => exact ⟨part, hpart.imp_right .inl, .nil _⟩
  | some hds =>
    cases fs with
    | nil => exact absurd rfl hds
    | cons d ds =>
      let point : NumberState := ⟨.point, negative, whole, [], exponentNegative, exponent⟩
      obtain ⟨hdigit, hadd⟩ := point.addFraction_digitChar d
      have hpoint :
          point.step (Nat.digitChar d.val) = .ok (some (point.addFraction (Nat.digitChar d.val))) :=
        if_pos hdigit
      rw [hadd] at hpoint
      rw [List.reverse_cons]
      refine ⟨.fraction, .inr (.inr rfl),
        .cons (t := point) ?_ (.cons hpoint (takes_fractionDigits ds [d]))⟩
      obtain rfl | rfl := hpart <;> rfl

theorem takes_exponentDigits (h : ∀ c ∈ cs, c.isDigit = true) (n : Nat) :
    Takes { s with part := .exponent, exponent := n } cs
      { s with part := .exponent, exponent := Nat.ofDigitChars 10 cs n } := by
  induction cs generalizing n with
  | nil => exact .nil _
  | cons c cs ih =>
    rw [Nat.ofDigitChars_cons]
    exact .cons (if_pos (h c List.mem_cons_self))
      (ih (fun d hd => h d (List.mem_cons_of_mem _ hd)) _)

/-- The mark of an exponent may stand after the digits before it. -/
theorem step_of_isMark {m : Char} (hm : isMark m = true)
    (hpart : s.part = .zero ∨ s.part = .whole ∨ s.part = .fraction) :
    s.step m = .ok (some { s with part := .mark }) := by
  obtain ⟨part, negative, whole, fraction, exponentNegative, exponent⟩ := s
  have hm' : m.isDigit = false ∧ m ≠ '.' := by
    simp only [isMark, Bool.or_eq_true, decide_eq_true_eq] at hm
    obtain rfl | rfl := hm <;> decide
  obtain rfl | rfl | rfl := hpart <;>
    simp only [step, hm, hm'.1, hm'.2, Bool.false_eq_true, if_false, if_true]

/-- The digits of an exponent, where they may begin. -/
theorem takes_exponentNumber (hs : ∀ d, d.isDigit = true → s.step d = .ok (some (s.addExponent d)))
    (hnone : s.exponent = 0) (h : Digits cs) :
    s.Takes cs { s with part := .exponent, exponent := ofDigits cs } := by
  cases cs with
  | nil => exact absurd rfl h.1
  | cons d ds =>
    refine .cons (hs d (h.2 d List.mem_cons_self)) ?_
    rw [ofDigits, Nat.ofDigitChars_cons, ← hnone]
    exact takes_exponentDigits (s := s) (fun c hc => h.2 c (List.mem_cons_of_mem _ hc)) _

/-- After the fraction the number is complete, and so it is after an exponent. -/
theorem takes_exponent {e : Option Int} (h : SpellsExponent cs e)
    (hpart : s.part = .zero ∨ s.part = .whole ∨ s.part = .fraction)
    (hsign : s.exponentNegative = false) (hnone : s.exponent = 0) :
    ∃ t, s.Takes cs t ∧ t.isComplete = true ∧
      t.numeral = ⟨s.negative, s.whole, s.fraction.reverse, e⟩ := by
  obtain ⟨part, negative, whole, fraction, exponentNegative, exponent⟩ := s
  subst hsign hnone
  let mark : NumberState := ⟨.mark, negative, whole, fraction, false, 0⟩
  cases h with
  | none =>
    refine ⟨_, .nil _, ?_, ?_⟩ <;> obtain rfl | rfl | rfl := hpart <;> rfl
  | plain hm hds =>
    have hdigit : ∀ d, d.isDigit = true → mark.step d = .ok (some (mark.addExponent d)) := by
      intro d hd
      have hsigns : d ≠ '+' ∧ d ≠ '-' := by
        constructor <;> rintro rfl <;> exact absurd hd (by decide)
      simp only [mark, step, hsigns.1, hsigns.2, hd, if_false, if_true]
    exact ⟨_, .cons (step_of_isMark hm hpart) (takes_exponentNumber hdigit rfl hds), rfl, rfl⟩
  | plus hm hds =>
    let signed : NumberState := { mark with part := .markSign }
    have hdigit : ∀ d, d.isDigit = true → signed.step d = .ok (some (signed.addExponent d)) :=
      fun _ hd => if_pos hd
    have hrest := takes_exponentNumber hdigit rfl hds
    exact ⟨_, .cons (step_of_isMark hm hpart) (.cons (t := signed) rfl hrest), rfl, rfl⟩
  | minus hm hds =>
    let signed : NumberState := { mark with part := .markSign, exponentNegative := true }
    have hdigit : ∀ d, d.isDigit = true → signed.step d = .ok (some (signed.addExponent d)) :=
      fun _ hd => if_pos hd
    have hrest := takes_exponentNumber hdigit rfl hds
    exact ⟨_, .cons (step_of_isMark hm hpart) (.cons (t := signed) rfl hrest), rfl, rfl⟩

/-- A numeral is taken from its first character on. -/
theorem exists_takes {n : Numeral} (h : SpellsNumber cs n) :
    ∃ c ds s t, cs = c :: ds ∧ start? c = some s ∧ s.Takes ds t ∧ t.isComplete = true ∧
      t.numeral = n := by
  cases h with
  | @mk negative whole fraction exponent fs e hwhole hzero hfraction hexponent =>
    cases whole with
    | nil => exact absurd rfl hwhole.1
    | cons d ds =>
      have hd : d.isDigit = true := hwhole.2 d List.mem_cons_self
      obtain ⟨part, hpart, hds⟩ := takes_opened hwhole hzero negative
      obtain ⟨part', hpart', hfs⟩ :=
        takes_fraction (s := ⟨part, negative, ofDigits (d :: ds), [], false, 0⟩) hfraction hpart rfl
      obtain ⟨t, ht, hcomplete, hvalue⟩ :=
        takes_exponent (s := ⟨part', negative, ofDigits (d :: ds), fs.reverse, false, 0⟩)
          hexponent hpart' rfl rfl
      rw [List.reverse_reverse] at hvalue
      have hrest := hds.append (hfs.append ht)
      cases negative with
      | false => exact ⟨d, _, _, t, rfl, start?_of_isDigit hd, hrest, hcomplete, hvalue⟩
      | true =>
        exact ⟨'-', _, _, t, rfl, rfl, .cons (step_sign_of_isDigit hd) hrest, hcomplete, hvalue⟩

end NumberState

namespace StringState

/-- The string goes on over characters. -/
abbrev Takes : StringState → List Char → StringState → Prop :=
  Path fun s c t => s.step c = .ok (.inl t)

/-- No bytes without a character so far, and what waits is the first half of a pair. -/
structure Tidy (s : StringState) : Prop where
  unspoilt : s.isSpoilt = false
  lead : ∀ l, s.lead = some l → isFirstHalf l = true

/-- What the string stands for when these pieces are left of it. -/
def outcome (s : StringState) (ps : List Piece) : Str :=
  match s.fault with
  | some f => .error f
  | none =>
    (meaning (s.lead.toList.map .unit ++ ps)).map fun cs => String.ofList (s.chars.reverse ++ cs)

theorem map_map_ofList (x : Except StrFault (List Char)) (c : Char) (cs : List Char) :
    (x.map (c :: ·)).map (fun ds => String.ofList (cs.reverse ++ ds)) =
      x.map fun ds => String.ofList ((c :: cs).reverse ++ ds) := by
  cases x with
  | error f => rfl
  | ok ds =>
    rw [List.reverse_cons, Except.map, Except.map, Except.map, List.append_assoc]
    rfl

variable {s : StringState}

theorem outcome_of_fault {f : StrFault} (h : s.fault = some f) (ps : List Piece) :
    s.outcome ps = .error f := by
  simp only [outcome, h]

theorem outcome_of_no_fault (h : s.fault = none) (ps : List Piece) :
    s.outcome ps =
      (meaning (s.lead.toList.map .unit ++ ps)).map fun cs =>
        String.ofList (s.chars.reverse ++ cs) := by
  simp only [outcome, h]

theorem fault_blame {f : StrFault} (h : s.fault = some f) (g : StrFault) :
    (s.blame g).fault = some f :=
  congrArg (Option.or · (some g)) h

theorem fault_blame_of_no_fault (h : s.fault = none) (g : StrFault) : (s.blame g).fault = some g :=
  congrArg (Option.or · (some g)) h

theorem outcome_blame (h : s.fault = none) (g : StrFault) (ps : List Piece) :
    (s.blame g).outcome ps = .error g :=
  outcome_of_fault (fault_blame_of_no_fault h g) ps

theorem settle_of_lead {l : Nat} (h : s.lead = some l) : s.settle = s.blame .unpaired := by
  simp only [settle, h, Option.isSome_some, if_true]

theorem settle_of_no_lead (h : s.lead = none) : s.settle = { s with part := .plain } := by
  simp only [settle, h, Option.isSome_none, Bool.false_eq_true, if_false]

theorem unit_of_lead {l : Nat} (h : s.lead = some l) (n : Nat) :
    s.unit n =
      if isSecondHalf n then
        { s with part := .plain, lead := none, chars := pairChar l n :: s.chars }
      else s.blame .lone := by
  simp only [StringState.unit, h]
  rfl

theorem unit_of_no_lead (h : s.lead = none) (n : Nat) :
    s.unit n =
      if isSecondHalf n then s.blame .lone
      else if isFirstHalf n then { s with part := .plain, lead := some n }
      else { s with part := .plain, chars := Char.ofNat n :: s.chars } := by
  simp only [StringState.unit, h]
  rfl

theorem fault_settle {f : StrFault} (h : s.fault = some f) : s.settle.fault = some f := by
  unfold settle
  split
  · exact fault_blame h _
  · exact h

theorem fault_unit {f : StrFault} (h : s.fault = some f) (n : Nat) : (s.unit n).fault = some f := by
  cases hlead : s.lead with
  | none =>
    rw [unit_of_no_lead hlead]
    split
    · exact fault_blame h _
    · split <;> exact h
  | some l =>
    rw [unit_of_lead hlead]
    split
    · exact h
    · exact fault_blame h _

/-- When nothing is left, what the string stands for is its result. -/
theorem outcome_nil (hs : s.Tidy) : s.outcome [] = s.result := by
  cases hfault : s.fault with
  | some f => simp only [outcome_of_fault hfault, result, fault_settle hfault]
  | none =>
    rw [outcome_of_no_fault hfault]
    cases hlead : s.lead with
    | none =>
      simp only [result, settle_of_no_lead hlead, hfault, hs.unspoilt, Bool.false_eq_true, if_false]
      exact congrArg (fun cs => Except.ok (String.ofList cs)) (List.append_nil _)
    | some l =>
      simp only [result, settle_of_lead hlead, fault_blame_of_no_fault hfault,
        Option.toList, List.map_cons,
        List.map_nil, List.append_nil, meaning_first_nil (hs.lead l hlead)]
      rfl

theorem outcome_push (hs : s.Tidy) (c : Char) (ps : List Piece) :
    (s.push c).outcome ps = s.outcome (.char c :: ps) := by
  cases hfault : s.fault with
  | some f => rw [outcome_of_fault hfault, outcome_of_fault (s := s.push c) (fault_settle hfault)]
  | none =>
    rw [outcome_of_no_fault hfault]
    cases hlead : s.lead with
    | none =>
      have hpush : s.push c = { s with part := .plain, chars := c :: s.chars } := by
        simp only [push, settle_of_no_lead hlead]
      rw [hpush]
      refine (outcome_of_no_fault (s := { s with part := .plain, chars := c :: s.chars })
        hfault ps).trans ?_
      simp only [hlead]
      exact (map_map_ofList (meaning ps) c s.chars).symm
    | some l =>
      have hpush : s.push c = { s.blame .unpaired with chars := c :: s.chars } := by
        simp only [push, settle_of_lead hlead]
        rfl
      have hblamed : (s.push c).fault = some .unpaired := by
        rw [hpush]
        exact fault_blame_of_no_fault hfault _
      rw [outcome_of_fault hblamed]
      exact (congrArg (Except.map _) (meaning_first_char (hs.lead l hlead) c ps)).symm

theorem outcome_unit (hs : s.Tidy) (n : Nat) (ps : List Piece) :
    (s.unit n).outcome ps = s.outcome (.unit n :: ps) := by
  cases hfault : s.fault with
  | some f => rw [outcome_of_fault hfault, outcome_of_fault (fault_unit hfault n)]
  | none =>
    rw [outcome_of_no_fault hfault]
    cases hlead : s.lead with
    | none =>
      simp only [Option.toList, List.map_nil, List.nil_append]
      rw [unit_of_no_lead hlead]
      split
      next hsecond =>
        rw [outcome_blame hfault, meaning_second hsecond]
        rfl
      next hsecond =>
        split
        next hfirst =>
          exact outcome_of_no_fault (s := { s with part := .plain, lead := some n }) hfault ps
        next hfirst =>
          refine (outcome_of_no_fault
            (s := { s with part := .plain, chars := Char.ofNat n :: s.chars }) hfault ps).trans ?_
          rw [meaning_whole (Bool.eq_false_iff.mpr hfirst) (Bool.eq_false_iff.mpr hsecond)]
          simp only [hlead]
          exact (map_map_ofList (meaning ps) (Char.ofNat n) s.chars).symm
    | some l =>
      simp only [Option.toList, List.map_cons, List.map_nil, List.singleton_append]
      rw [unit_of_lead hlead, meaning_first_unit (hs.lead l hlead)]
      split
      next hsecond =>
        refine (outcome_of_no_fault
          (s := { s with part := .plain, lead := none, chars := pairChar l n :: s.chars })
          hfault ps).trans ?_
        exact (map_map_ofList (meaning ps) (pairChar l n) s.chars).symm
      next hsecond =>
        rw [outcome_blame hfault]
        rfl

theorem Tidy.blame (hs : s.Tidy) (f : StrFault) : (s.blame f).Tidy := ⟨hs.unspoilt, nofun⟩

theorem Tidy.push (hs : s.Tidy) (c : Char) : (s.push c).Tidy := by
  cases hlead : s.lead with
  | none =>
    simp only [StringState.push, settle_of_no_lead hlead]
    exact ⟨hs.unspoilt, hs.lead⟩
  | some l =>
    simp only [StringState.push, settle_of_lead hlead]
    exact ⟨hs.unspoilt, nofun⟩

theorem Tidy.unit (hs : s.Tidy) (n : Nat) : (s.unit n).Tidy := by
  cases hlead : s.lead with
  | none =>
    rw [unit_of_no_lead hlead]
    split
    · exact hs.blame _
    split
    next hfirst => exact ⟨hs.unspoilt, fun l hl => Option.some.inj hl ▸ hfirst⟩
    · exact ⟨hs.unspoilt, hs.lead⟩
  | some l =>
    rw [unit_of_lead hlead]
    split
    · exact ⟨hs.unspoilt, nofun⟩
    · exact hs.blame _

theorem part_push (s : StringState) (c : Char) : (s.push c).part = .plain := by
  cases hlead : s.lead with
  | none => simp only [push, settle_of_no_lead hlead]
  | some l =>
    simp only [push, settle_of_lead hlead]
    rfl

theorem part_unit (s : StringState) (n : Nat) : (s.unit n).part = .plain := by
  cases hlead : s.lead with
  | none =>
    rw [unit_of_no_lead hlead]
    split
    · rfl
    split <;> rfl
  | some l =>
    rw [unit_of_lead hlead]
    split <;> rfl

/-- The four digits of a code unit. -/
theorem takes_unit {cs : List Char} {n : Nat} (hlength : cs.length = 4)
    (h : Text.hexValue? cs = some n) :
    Takes { s with part := .hex [] } cs (s.unit n) := by
  match cs, hlength with
  | [a, b, c, d], _ =>
    have hwidth := Text.utf8Size_of_hexValue? h
    simp only [List.mem_cons, List.not_mem_nil, or_false, forall_eq_or_imp, forall_eq] at hwidth
    obtain ⟨ha, hb, hc, hd⟩ := hwidth
    refine .cons (t := { s with part := .hex [a] }) ?_
      (.cons (t := { s with part := .hex [a, b] }) ?_
      (.cons (t := { s with part := .hex [a, b, c] }) ?_ (.cons ?_ (.nil _))))
    · simp [step, ha]
    · simp [step, ha, hb]
    · simp [step, ha, hb, hc]
    · simp [step, ha, hb, hc, hd, h]
      rfl

theorem takes_piece {cs : List Char} {p : Piece} (h : SpellsPiece cs p) (hs : s.Tidy)
    (hplain : s.part = .plain) :
    ∃ t, s.Takes cs t ∧ t.Tidy ∧ t.part = .plain ∧ ∀ ps, t.outcome ps = s.outcome (p :: ps) := by
  have hescape : s.step '\\' = .ok (.inl { s with part := .escape }) := by
    simp only [step, hplain]
    rfl
  cases h with
  | @plain c hquote hslash hcontrol =>
    have hstep : s.step c = .ok (.inl (s.push c)) := by
      simp only [step, hplain, hquote, hslash, hcontrol, if_false]
    exact ⟨s.push c, .cons hstep (.nil _), hs.push c, part_push s c, outcome_push hs c⟩
  | @short e c hshort =>
    have he : e ≠ 'u' := by
      rintro rfl
      cases hshort
    let escaped : StringState := { s with part := .escape }
    have htidy : escaped.Tidy := ⟨hs.unspoilt, hs.lead⟩
    have hstep : escaped.step e = .ok (.inl (escaped.push c)) := by
      simp only [escaped, step, he, if_false, hshort]
    exact ⟨escaped.push c, .cons hescape (.cons hstep (.nil _)), htidy.push c, part_push escaped c,
      outcome_push htidy c⟩
  | @unit cs n hlength hvalue =>
    exact ⟨s.unit n,
      .cons hescape (.cons (t := { s with part := .hex [] }) rfl (takes_unit hlength hvalue)),
      hs.unit n, part_unit s n, outcome_unit hs n⟩

theorem takes_pieces {cs : List Char} {ps : List Piece} (h : SpellsPieces cs ps) (hs : s.Tidy)
    (hplain : s.part = .plain) :
    ∃ t, s.Takes cs t ∧ t.Tidy ∧ t.part = .plain ∧ t.outcome [] = s.outcome ps := by
  induction h generalizing s with
  | nil => exact ⟨s, .nil _, hs, hplain, rfl⟩
  | @cons cs ds p ps hp _ ih =>
    obtain ⟨t, ht, htidy, htplain, houtcome⟩ := takes_piece hp hs hplain
    obtain ⟨u, hu, hutidy, huplain, huoutcome⟩ := ih htidy htplain
    exact ⟨u, ht.append hu, hutidy, huplain, huoutcome.trans (houtcome ps)⟩

/-- A string is taken up to its last quote, and is then what it spells. -/
theorem exists_takes {cs : List Char} {v : Str} (h : SpellsStr cs v) :
    ∃ ds t, cs = '"' :: (ds ++ ['"']) ∧ start.Takes ds t ∧ t.step '"' = .ok (.inr v) := by
  cases h with
  | @mk ds ps hps =>
    obtain ⟨t, ht, htidy, hplain, houtcome⟩ := takes_pieces hps (s := start) ⟨rfl, nofun⟩ rfl
    refine ⟨ds, t, rfl, ht, ?_⟩
    have hstep : t.step '"' = .ok (.inr t.result) := by
      simp only [step, hplain, if_true]
    rw [hstep, ← outcome_nil htidy, houtcome, outcome_of_no_fault rfl]
    rfl

end StringState

end Provision.Json
