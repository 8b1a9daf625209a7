import Provision.Json.Literal

/-!
JSON as a language: which characters spell which value, apart from any way of reading them. A string
may escape one half of a surrogate pair alone; it is spelled like the others, but stands for no
text.
-/
namespace Provision.Json

/-- White space, or nothing. -/
def Space (cs : List Char) : Prop := ∀ c ∈ cs, isWhite c = true

theorem space_nil : Space [] := List.forall_mem_nil _

theorem Space.concat {cs : List Char} (h : Space cs) {c : Char} (hc : isWhite c = true) :
    Space (cs ++ [c]) :=
  List.forall_mem_append.mpr ⟨h, List.forall_mem_singleton.mpr hc⟩

section Numbers

/-- Digits, one at least. -/
def Digits (cs : List Char) : Prop := cs ≠ [] ∧ ∀ c ∈ cs, c.isDigit = true

/-- The number that digits write. -/
def ofDigits (cs : List Char) : Nat := Nat.ofDigitChars 10 cs 0

inductive SpellsFraction : List Char → List (Fin 10) → Prop
  | none : SpellsFraction [] []
  | some {ds : List (Fin 10)} (h : ds ≠ []) :
      SpellsFraction ('.' :: ds.map fun d => Nat.digitChar d.val) ds

inductive SpellsExponent : List Char → Option Int → Prop
  | none : SpellsExponent [] none
  | plain {m : Char} {cs : List Char} (hm : NumberState.isMark m = true) (h : Digits cs) :
      SpellsExponent (m :: cs) (some (ofDigits cs))
  | plus {m : Char} {cs : List Char} (hm : NumberState.isMark m = true) (h : Digits cs) :
      SpellsExponent (m :: '+' :: cs) (some (ofDigits cs))
  | minus {m : Char} {cs : List Char} (hm : NumberState.isMark m = true) (h : Digits cs) :
      SpellsExponent (m :: '-' :: cs) (some (-(ofDigits cs : Int)))

/-- Before a fraction and an exponent there are digits. A leading zero stands alone. -/
inductive SpellsNumber : List Char → Numeral → Prop
  | mk (negative : Bool) {whole fraction exponent : List Char} {fs : List (Fin 10)} {e : Option Int}
      (hwhole : Digits whole) (hzero : whole.head? = some '0' → whole = ['0'])
      (hfraction : SpellsFraction fraction fs) (hexponent : SpellsExponent exponent e) :
      SpellsNumber ((if negative then ['-'] else []) ++ (whole ++ (fraction ++ exponent)))
        ⟨negative, ofDigits whole, fs, e⟩

end Numbers

section Strings

/-- What stands in a string: a character, or a code unit of sixteen bits. -/
inductive Piece where
  | char (c : Char)
  | unit (n : Nat)

inductive SpellsPiece : List Char → Piece → Prop
  | plain {c : Char} (hquote : c ≠ '"') (hslash : c ≠ '\\') (hcontrol : ¬c.toNat < 0x20) :
      SpellsPiece [c] (.char c)
  | short {e c : Char} (h : StringState.shortEscape? e = some c) : SpellsPiece ['\\', e] (.char c)
  | unit {cs : List Char} {n : Nat} (hlength : cs.length = 4) (h : Text.hexValue? cs = some n) :
      SpellsPiece ('\\' :: 'u' :: cs) (.unit n)

inductive SpellsPieces : List Char → List Piece → Prop
  | nil : SpellsPieces [] []
  | cons {cs ds : List Char} {p : Piece} {ps : List Piece} (h : SpellsPiece cs p)
      (h' : SpellsPieces ds ps) :
      SpellsPieces (cs ++ ds) (p :: ps)

def isFirstHalf (n : Nat) : Bool := 0xD800 ≤ n && n ≤ 0xDBFF

def isSecondHalf (n : Nat) : Bool := 0xDC00 ≤ n && n ≤ 0xDFFF

/-- The character of two halves. -/
def pairChar (n m : Nat) : Char := Char.ofNat (0x10000 + (n - 0xD800) * 0x400 + (m - 0xDC00))

/-- The characters that the pieces are: two halves that belong together are one, and any other half
is none. -/
def meaning : List Piece → Except StrFault (List Char)
  | [] => .ok []
  | .char c :: ps => (meaning ps).map (c :: ·)
  | .unit n :: ps =>
    if isSecondHalf n then .error .lone
    else if isFirstHalf n then
      match ps with
      | .unit m :: ps =>
        if isSecondHalf m then (meaning ps).map (pairChar n m :: ·) else .error .lone
      | _ => .error .unpaired
    else (meaning ps).map (Char.ofNat n :: ·)

theorem isSecondHalf_of_isFirstHalf {n : Nat} (h : isFirstHalf n = true) :
    isSecondHalf n = false := by
  simp only [isFirstHalf, isSecondHalf, Bool.and_eq_true, decide_eq_true_eq, Bool.and_eq_false_iff,
    decide_eq_false_iff_not] at h ⊢
  omega

section Halves

variable {n : Nat}

theorem meaning_second (h : isSecondHalf n = true) (ps : List Piece) :
    meaning (.unit n :: ps) = .error .lone := by
  rw [meaning.eq_def]
  exact if_pos h

theorem meaning_first_nil (h : isFirstHalf n = true) : meaning [.unit n] = .error .unpaired := by
  simp only [meaning, isSecondHalf_of_isFirstHalf h, h, Bool.false_eq_true, if_false, if_true]

theorem meaning_first_char (h : isFirstHalf n = true) (c : Char) (ps : List Piece) :
    meaning (.unit n :: .char c :: ps) = .error .unpaired := by
  simp only [meaning, isSecondHalf_of_isFirstHalf h, h, Bool.false_eq_true, if_false, if_true]

theorem meaning_first_unit (h : isFirstHalf n = true) (m : Nat) (ps : List Piece) :
    meaning (.unit n :: .unit m :: ps) =
      if isSecondHalf m then (meaning ps).map (pairChar n m :: ·) else .error .lone := by
  rw [meaning, isSecondHalf_of_isFirstHalf h, if_neg Bool.false_ne_true, if_pos h]

theorem meaning_whole (h : isFirstHalf n = false) (h' : isSecondHalf n = false) (ps : List Piece) :
    meaning (.unit n :: ps) = (meaning ps).map (Char.ofNat n :: ·) := by
  rw [meaning.eq_def]
  simp only [h, h', Bool.false_eq_true, if_false]

end Halves

inductive SpellsStr : List Char → Str → Prop
  | mk {cs : List Char} {ps : List Piece} (h : SpellsPieces cs ps) :
      SpellsStr ('"' :: (cs ++ ['"'])) ((meaning ps).map String.ofList)

end Strings

/-- A value with its characters, and the white space around it. -/
structure Part where
  before : List Char
  text : List Char
  after : List Char
  value : Json

/-- A member with its characters. -/
structure Member extends Part where
  front : List Char
  nameText : List Char
  back : List Char
  name : Str

namespace Part

def chars (p : Part) : List Char := p.before ++ (p.text ++ p.after)

def IsSpaced (p : Part) : Prop := Space p.before ∧ Space p.after

end Part

namespace Member

def chars (m : Member) : List Char := m.front ++ (m.nameText ++ (m.back ++ ':' :: m.toPart.chars))

def IsNamed (m : Member) : Prop := Space m.front ∧ SpellsStr m.nameText m.name ∧ Space m.back

def entry (m : Member) : Str × Json := (m.name, m.value)

end Member

/-- The characters are a JSON text of the value, but for white space around it. -/
inductive Spells : List Char → Json → Prop
  | null : Spells ['n', 'u', 'l', 'l'] .null
  | true : Spells ['t', 'r', 'u', 'e'] (.bool true)
  | false : Spells ['f', 'a', 'l', 's', 'e'] (.bool false)
  | number {cs : List Char} {n : Numeral} (h : SpellsNumber cs n) : Spells cs (.number n)
  | string {cs : List Char} {s : Str} (h : SpellsStr cs s) : Spells cs (.string s)
  | noItems {cs : List Char} (h : Space cs) : Spells ('[' :: (cs ++ [']'])) (.array [])
  | items {p : Part} {ps : List Part} (hspaced : ∀ q ∈ p :: ps, q.IsSpaced)
      (h : ∀ q ∈ p :: ps, Spells q.text q.value) :
      Spells ('[' :: (p.chars ++ (ps.flatMap (fun q => ',' :: q.chars) ++ [']'])))
        (.array ((p :: ps).map Part.value))
  | noMembers {cs : List Char} (h : Space cs) : Spells ('\x7b' :: (cs ++ ['\x7d'])) (.object [])
  | members {m : Member} {ms : List Member} (hnamed : ∀ n ∈ m :: ms, n.IsNamed)
      (hspaced : ∀ n ∈ m :: ms, n.toPart.IsSpaced) (h : ∀ n ∈ m :: ms, Spells n.text n.value) :
      Spells ('\x7b' :: (m.chars ++ (ms.flatMap (fun n => ',' :: n.chars) ++ ['\x7d'])))
        (.object ((m :: ms).map Member.entry))

/-- The text is JSON, and this is its value. -/
def StandsFor (s : String) (v : Json) : Prop :=
  ∃ before cs after, Space before ∧ Space after ∧ Spells cs v ∧ s.toList = before ++ (cs ++ after)

end Provision.Json
