import Provision.Base64

/-!
Texts as they are read: their characters, and between them the bytes that are part of none. Places
in a text are counted in bytes.
-/
namespace Provision.Json

inductive Symbol where
  | char (c : Char)
  /-- A byte that is part of no character. -/
  | stray (b : UInt8)
  deriving DecidableEq

namespace Symbol

/-- How many bytes it takes. -/
def width : Symbol → Nat
  | .char c => c.utf8Size
  | .stray _ => 1

/-- The character that it is seen as. -/
def shown : Symbol → Char
  | .char c => c
  | .stray _ => '\ufffd'

def ofText (s : String) : List Symbol := s.toList.map .char

/-- The character at the start of bytes, and how many more bytes than one it takes. -/
def leading? (bs : Bytes) : Option (Char × Nat) :=
  [0, 1, 2, 3].findSome? fun more =>
    match (String.fromUTF8? ⟨(bs.take (more + 1)).toArray⟩).map String.toList with
    | some [c] => some (c, more)
    | _ => none

def ofBytes : Bytes → List Symbol
  | [] => []
  | b :: bs =>
    match leading? (b :: bs) with
    | some (c, more) => .char c :: ofBytes (bs.drop more)
    | none => .stray b :: ofBytes bs
termination_by bs => bs.length
decreasing_by all_goals simp only [List.length_drop, List.length_cons]; omega

end Symbol

/-- White space between the tokens. -/
def isWhite (c : Char) : Bool := c = ' ' || c = '\n' || c = '\t' || c = '\r'

def skipWhite (xs : List Symbol) : List Symbol := xs.dropWhile fun x => isWhite x.shown

/-- How many bytes a text takes. -/
def byteCount : List Symbol → Nat
  | [] => 0
  | x :: xs => x.width + byteCount xs

/-- A line, from one, and the number of bytes of it up to a place. -/
structure Position where
  line : Nat
  column : Nat
  deriving DecidableEq

namespace Position

def start : Position := ⟨1, 0⟩

/-- The position `n` bytes further, in the text that follows. -/
def advance (p : Position) : (n : Nat) → List Symbol → Position
  | _, [] => p
  | n, x :: xs =>
    if n < x.width then ⟨p.line, p.column + n⟩
    else if x = .char '\n' then advance ⟨p.line + 1, 0⟩ (n - x.width) xs
    else advance ⟨p.line, p.column + x.width⟩ (n - x.width) xs

example : Position.start.advance 4 (Symbol.ofText "a\nxé") = ⟨2, 2⟩ := by decide +kernel

end Position

example : Symbol.ofBytes [0x61, 0xC3, 0xA9, 0xC3, 0x28] =
    [.char 'a', .char 'é', .stray 0xC3, .char '('] := by decide +kernel

end Provision.Json
