/-!
White space as Unicode means it: the code points with the property White_Space. A text is blank when
it holds nothing else.
-/
namespace Provision.Text

/-- The property White_Space. -/
def isSpace (c : Char) : Bool :=
  (0x09 ≤ c.toNat && c.toNat ≤ 0x0D) || c.toNat == 0x20 || c.toNat == 0x85 || c.toNat == 0xA0 ||
  c.toNat == 0x1680 || (0x2000 ≤ c.toNat && c.toNat ≤ 0x200A) || c.toNat == 0x2028 ||
  c.toNat == 0x2029 || c.toNat == 0x202F || c.toNat == 0x205F || c.toNat == 0x3000

/-- Drops the leading elements on which `p` holds, and the trailing ones. -/
def stripBoth (p : Char → Bool) (cs : List Char) : List Char :=
  ((cs.dropWhile p).reverse.dropWhile p).reverse

/-- The text without white space around it. -/
def trim (s : String) : String := String.ofList (stripBoth isSpace s.toList)

/-- The text without the characters `c` at its end. -/
def trimEnd (c : Char) (s : String) : String :=
  String.ofList (s.toList.reverse.dropWhile (· == c)).reverse

/-- The text is empty or white space throughout. -/
def isBlank (s : String) : Bool := s.toList.all isSpace

@[simp] theorem isBlank_empty : isBlank "" = true := by decide

theorem dropWhile_eq_nil_iff_all {p : Char → Bool} {cs : List Char} :
    cs.dropWhile p = [] ↔ cs.all p = true := by
  induction cs with
  | nil => simp
  | cons c cs ih => cases h : p c <;> simp [List.dropWhile, h, ih]

theorem all_dropWhile_iff {p : Char → Bool} {cs : List Char} :
    (cs.dropWhile p).all p = true ↔ cs.all p = true := by
  induction cs with
  | nil => simp
  | cons c cs ih => cases h : p c <;> simp_all [List.dropWhile]

theorem stripBoth_eq_nil_iff {p : Char → Bool} {cs : List Char} :
    stripBoth p cs = [] ↔ cs.all p = true := by
  rw [stripBoth, List.reverse_eq_nil_iff, dropWhile_eq_nil_iff_all, List.all_reverse,
    all_dropWhile_iff]

/-- Nothing is left of a text exactly when it is blank. -/
theorem trim_eq_empty_iff {s : String} : trim s = "" ↔ isBlank s = true := by
  rw [isBlank, ← stripBoth_eq_nil_iff, trim]
  exact ⟨fun h => by simpa using congrArg String.toList h, fun h => by rw [h]⟩

end Provision.Text
