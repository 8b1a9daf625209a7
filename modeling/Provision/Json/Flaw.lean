import Provision.Json.Fault
import Provision.Json.Literal

/-!
What first shows that a text stands for no value of a wanted type, and where. A scanner goes over
the text of one value from the left and stops at the first flaw, be it one of the text or one of the
value.
-/
namespace Provision.Json

/-- A flaw shows `ahead` bytes into `rest`, which is left of the text. One that is not settled shows
only where that which holds the value goes on. -/
structure Flaw where
  cause : Cause
  rest : List Symbol
  ahead : Nat
  isSettled : Bool

namespace Flaw

def here (cause : Cause) (rest : List Symbol) : Flaw := ⟨cause, rest, 0, true⟩

/-- A flaw that the next byte shows. -/
def next (cause : Cause) (rest : List Symbol) : Flaw := ⟨cause, rest, 1, true⟩

def unsettled (cause : Cause) (rest : List Symbol) : Flaw := ⟨cause, rest, 0, false⟩

/-- Settles a flaw at the place where `goOn` leads. -/
def settle (goOn : List Symbol → List Symbol) (f : Flaw) : Flaw :=
  if f.isSettled then f else here f.cause (goOn f.rest)

/-- The position in the text. -/
def position (f : Flaw) (text : List Symbol) : Position :=
  Position.start.advance (byteCount text - byteCount f.rest + f.ahead) text

end Flaw

/-- Goes over the text of a value, with the white space before it, and says what is left. -/
abbrev Scanner : Type := List Symbol → Except Flaw (List Symbol)

/-- The text ends too soon. -/
def tooShort {α : Type} (fault : SyntaxFault) : Except Flaw α :=
  .error (.here (.malformed fault) [])

/-- The next byte cannot stand there. -/
def misplaced {α : Type} (fault : SyntaxFault) (xs : List Symbol) : Except Flaw α :=
  .error (.next (.malformed fault) xs)

/-- The rest of a word. -/
def scanWord : List Char → Scanner
  | [], xs => .ok xs
  | _ :: _, [] => tooShort .endInValue
  | c :: cs, x :: xs => if x = .char c then scanWord cs xs else misplaced .word (x :: xs)

/-- The exponent makes a number too large, whatever comes after. -/
def NumberState.isBoundless (n : NumberState) : Bool :=
  0x7FFFFFFF < n.exponent && !n.exponentNegative &&
    !(n.whole == 0 && n.fraction.all fun d => d.val == 0)

/-- The rest of a number, which is read or only passed over. -/
def scanNumber (isRead : Bool) (n : NumberState) : List Symbol → Except Flaw (Numeral × List Symbol)
  | [] =>
    if n.isComplete then .ok (n.numeral, []) else tooShort (if isRead then .endInValue else .number)
  | x :: xs =>
    match n.step x.shown with
    | .error e => misplaced e (x :: xs)
    | .ok none => .ok (n.numeral, x :: xs)
    | .ok (some m) =>
      if isRead && m.isBoundless then .error (.here .tooLarge xs) else scanNumber isRead m xs

/-- The rest of a string, which is read or only passed over. An escape is at fault as soon as it can
no longer be completed, and bytes without a character at the end of the string. Who passes over a
string stops in front of a control character. -/
def scanString (isRead : Bool) (s : StringState) : List Symbol → Except Flaw (Str × List Symbol)
  | [] => tooShort .endInString
  | x :: xs =>
    match s.read x with
    | .error e =>
      if isRead && s.isOverdue then .error (.next (.text .unpaired) (x :: xs))
      else if !isRead && e = .control then .error (.here (.malformed e) (x :: xs))
      else .error ⟨.malformed e, x :: xs, s.ahead, true⟩
    | .ok (.inl t) =>
      match isRead, t.fault with
      | true, some f => .error (.next (.text f) (x :: xs))
      | _, _ => scanString isRead t xs
    | .ok (.inr (.ok text)) => .ok (.ok text, xs)
    | .ok (.inr (.error f)) => if isRead then .error (.here (.text f) xs) else .ok (.error f, xs)

/-- The text of a string after its first quote. -/
def scanText (xs : List Symbol) : Except Flaw (String × List Symbol) := do
  let (s, rest) ← scanString true .start xs
  match s with
  | .ok text => return (text, rest)
  | .error f => throw (.here (.text f) rest)

/-- What a value turns out to be. A sequence or map is not gone into. -/
def scanFound (xs : List Symbol) : Except Flaw (Found × List Symbol) := do
  match skipWhite xs with
  | [] => tooShort .endInValue
  | x :: xs =>
    match x.shown with
    | 'n' => return (.null, ← scanWord ['u', 'l', 'l'] xs)
    | 't' => return (.boolean true, ← scanWord ['r', 'u', 'e'] xs)
    | 'f' => return (.boolean false, ← scanWord ['a', 'l', 's', 'e'] xs)
    | '"' => return (← scanText xs).map .string id
    | '[' => return (.sequence, x :: xs)
    | '\x7b' => return (.map, x :: xs)
    | c =>
      match NumberState.start? c with
      | none => misplaced .value (x :: xs)
      | some n =>
        let (n, rest) ← scanNumber true n xs
        match found (.number n) with
        | .ok f => return (f, rest)
        | .error e => throw (.here e rest)

/-- A value of which it is known what is wrong with it. -/
def scanUnless (refusal? : Found → Option Cause) : Scanner := fun xs => do
  let (f, rest) ← scanFound xs
  match refusal? f with
  | none => return rest
  | some c => throw (.here c rest)

/-- A value that is not of the wanted shape. -/
def scanMismatch (wanted : Shape) : Scanner := scanUnless fun f => some (.type f wanted)

def scanUnit : Scanner := scanUnless fun
  | .null => none
  | f => some (.type f .unit)

/-- A value in brackets, which is gone into. -/
def scanInside (bracket : Char) (wanted : Shape) (inner : Scanner) : Scanner := fun xs =>
  match skipWhite xs with
  | [] => scanMismatch wanted []
  | x :: rest => if x = .char bracket then inner rest else scanMismatch wanted (x :: rest)

/-- The first flaw of a text, if there is one. Nothing but white space may follow the value. -/
def firstFlaw? (scan : Scanner) (text : List Symbol) : Option Flaw :=
  match scan text with
  | .error f => some f
  | .ok rest =>
    match skipWhite rest with
    | [] => none
    | x :: xs => some (.next (.malformed .trailing) (x :: xs))

end Provision.Json
