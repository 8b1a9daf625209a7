import Provision.Json.Basic
import Provision.Json.Symbol
import Provision.Text.Hexadecimal
import Provision.Text.Width

/-!
Numbers and strings read character by character. Each state is what has been read of the literal so
far; a number ends before the first character that cannot go on with it.
-/
namespace Provision.Json

inductive NumberPart where
  | sign
  | zero
  | whole
  | point
  | fraction
  | mark
  | markSign
  | exponent
  deriving DecidableEq

/-- A number under way. The digits of the fraction are in reverse. -/
structure NumberState where
  part : NumberPart
  negative : Bool
  whole : Nat
  fraction : List (Fin 10)
  exponentNegative : Bool
  exponent : Nat

namespace NumberState

def digit (c : Char) : Nat := c.toNat - '0'.toNat

/-- A number that starts with a minus sign or a digit. -/
def start? (c : Char) : Option NumberState :=
  if c = '-' then some ⟨.sign, true, 0, [], false, 0⟩
  else if c = '0' then some ⟨.zero, false, 0, [], false, 0⟩
  else if c.isDigit then some ⟨.whole, false, digit c, [], false, 0⟩
  else none

def isMark (c : Char) : Bool := c = 'e' || c = 'E'

def addFraction (s : NumberState) (c : Char) : NumberState :=
  { s with part := .fraction, fraction := Fin.ofNat 10 (digit c) :: s.fraction }

def addExponent (s : NumberState) (c : Char) : NumberState :=
  { s with part := .exponent, exponent := 10 * s.exponent + digit c }

/-- The number after one more character; nothing when the number has ended before it. -/
def step (s : NumberState) (c : Char) : Except SyntaxFault (Option NumberState) :=
  match s.part with
  | .sign =>
    if c = '0' then .ok (some { s with part := .zero })
    else if c.isDigit then .ok (some { s with part := .whole, whole := digit c })
    else .error .number
  | .zero =>
    if c.isDigit then .error .number
    else if c = '.' then .ok (some { s with part := .point })
    else if isMark c then .ok (some { s with part := .mark })
    else .ok none
  | .whole =>
    if c.isDigit then .ok (some { s with whole := 10 * s.whole + digit c })
    else if c = '.' then .ok (some { s with part := .point })
    else if isMark c then .ok (some { s with part := .mark })
    else .ok none
  | .point => if c.isDigit then .ok (some (s.addFraction c)) else .error .number
  | .fraction =>
    if c.isDigit then .ok (some (s.addFraction c))
    else if isMark c then .ok (some { s with part := .mark })
    else .ok none
  | .mark =>
    if c = '+' then .ok (some { s with part := .markSign })
    else if c = '-' then .ok (some { s with part := .markSign, exponentNegative := true })
    else if c.isDigit then .ok (some (s.addExponent c))
    else .error .number
  | .markSign => if c.isDigit then .ok (some (s.addExponent c)) else .error .number
  | .exponent => if c.isDigit then .ok (some (s.addExponent c)) else .ok none

/-- The number may end here. -/
def isComplete (s : NumberState) : Bool :=
  match s.part with
  | .zero | .whole | .fraction | .exponent => true
  | _ => false

def numeral (s : NumberState) : Numeral where
  negative := s.negative
  whole := s.whole
  fraction := s.fraction.reverse
  exponent :=
    if s.part = .exponent then some (if s.exponentNegative then -s.exponent else s.exponent)
    else none

end NumberState

inductive StringPart where
  | plain
  | escape
  | hex (digits : List Char)

/-- A string under way: its characters in reverse, the first half of a surrogate pair that waits for
the second, the first fault of an escape, and whether there are bytes that are no characters. -/
structure StringState where
  part : StringPart
  chars : List Char
  lead : Option Nat
  fault : Option StrFault
  isSpoilt : Bool

namespace StringState

def start : StringState := ⟨.plain, [], none, none, false⟩

def blame (s : StringState) (f : StrFault) : StringState :=
  { s with part := .plain, lead := none, fault := s.fault.or (some f) }

/-- A half pair that anything but a second half follows is at fault. -/
def settle (s : StringState) : StringState :=
  if s.lead.isSome then s.blame .unpaired else { s with part := .plain }

def push (s : StringState) (c : Char) : StringState :=
  let s := s.settle
  { s with chars := c :: s.chars }

/-- The character that a one-letter escape stands for. -/
def shortEscape? (c : Char) : Option Char :=
  if c = '"' then some '"'
  else if c = '\\' then some '\\'
  else if c = '/' then some '/'
  else if c = 'b' then some '\x08'
  else if c = 'f' then some '\x0c'
  else if c = 'n' then some '\n'
  else if c = 'r' then some '\r'
  else if c = 't' then some '\t'
  else none

/-- An escaped code unit of sixteen bits. -/
def unit (s : StringState) (n : Nat) : StringState :=
  let isSecond := 0xDC00 ≤ n && n ≤ 0xDFFF
  match s.lead with
  | some l =>
    if isSecond then
      { s with
        part := .plain, lead := none
        chars := Char.ofNat (0x10000 + (l - 0xD800) * 0x400 + (n - 0xDC00)) :: s.chars }
    else s.blame .lone
  | none =>
    if isSecond then s.blame .lone
    else if 0xD800 ≤ n && n ≤ 0xDBFF then { s with part := .plain, lead := some n }
    else { s with part := .plain, chars := Char.ofNat n :: s.chars }

/-- What the string stands for when it ends here. -/
def result (s : StringState) : Str :=
  match s.settle.fault with
  | some f => .error f
  | none => if s.isSpoilt then .error .encoding else .ok (String.ofList s.chars.reverse)

/-- The string after one more character, or what it stands for when the character ends it. The
digits of a code unit are the next four bytes. -/
def step (s : StringState) (c : Char) : Except SyntaxFault (StringState ⊕ Str) :=
  match s.part with
  | .plain =>
    if c = '"' then .ok (.inr s.result)
    else if c = '\\' then .ok (.inl { s with part := .escape })
    else if c.toNat < 0x20 then .error .control
    else .ok (.inl (s.push c))
  | .escape =>
    if c = 'u' then .ok (.inl { s with part := .hex [] })
    else
      match shortEscape? c with
      | some d => .ok (.inl (s.push d))
      | none => .error .escape
  | .hex ds =>
    if Text.byteLength (ds ++ [c]) < 4 then .ok (.inl { s with part := .hex (ds ++ [c]) })
    else
      match Text.hexValue? (ds ++ [c]) with
      | some n => .ok (.inl (s.unit n))
      | none => .error .escape

/-- The string after one more symbol. -/
def read (s : StringState) : Symbol → Except SyntaxFault (StringState ⊕ Str)
  | .char c => s.step c
  | .stray b => { s with isSpoilt := true }.step (Symbol.stray b).shown

/-- How many bytes the next step looks at. -/
def ahead (s : StringState) : Nat :=
  match s.part with
  | .hex ds => 4 - Text.byteLength ds
  | _ => 1

/-- A half pair has waited too long when the next step fails. -/
def isOverdue (s : StringState) : Bool :=
  match s.part with
  | .hex _ => false
  | _ => s.lead.isSome

end StringState
end Provision.Json
