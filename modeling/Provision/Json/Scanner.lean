import Provision.Json.Flaw

/-!
Scanners of lists, objects and values of any kind, put together from those of their parts.
-/
namespace Provision.Json

/-- The end of a list, or else the part that follows. -/
def leaveList (xs : List Symbol) : List Symbol :=
  match skipWhite xs with
  | .char ']' :: rest => rest
  | .char ',' :: rest => skipWhite rest
  | rest => rest

/-- The end of an object, or else what comes next. -/
def leaveObject (xs : List Symbol) : List Symbol :=
  match skipWhite xs with
  | .char '\x7d' :: rest => rest
  | rest => rest

/-- Where the next item of a list begins, if the list does not end. -/
def nextItem? (isFirst : Bool) (xs : List Symbol) : Except Flaw (Option (List Symbol)) :=
  match skipWhite xs with
  | [] => tooShort .endInList
  | x :: xs =>
    if x = .char ']' then .ok none
    else if isFirst then .ok (some (x :: xs))
    else if x = .char ',' then
      match skipWhite xs with
      | [] => tooShort .endInValue
      | y :: ys =>
        if y = .char ']' then misplaced .trailingComma (y :: ys) else .ok (some (y :: ys))
    else misplaced .listSeparator (x :: xs)

/-- The rest of a list. -/
def scanItems (item : Scanner) : (fuel : Nat) → (isFirst : Bool) → Scanner
  | 0, _, xs => .ok xs
  | fuel + 1, isFirst, xs => do
    match ← nextItem? isFirst xs with
    | none => return (skipWhite xs).drop 1
    | some ys => scanItems item fuel false (← item ys)

/-- A list after its bracket. -/
def scanList (item : Scanner) : Scanner := fun xs =>
  (scanItems item (xs.length + 1) true xs).mapError (·.settle leaveList)

/-- The end of a list that has all its items. -/
def scanListEnd (xs : List Symbol) : Except Flaw (List Symbol) :=
  match skipWhite xs with
  | [] => tooShort .endInList
  | x :: xs =>
    if x = .char ']' then .ok xs
    else if x = .char ',' then
      match skipWhite xs with
      | .char ']' :: ys => misplaced .trailingComma (.char ']' :: ys)
      | ys => misplaced .trailing ys
    else misplaced .trailing (x :: xs)

/-- What follows the quote before the next name of an object, if the object does not end. -/
def nextName? (isFirst : Bool) (xs : List Symbol) : Except Flaw (Option (List Symbol)) :=
  match skipWhite xs with
  | [] => tooShort .endInObject
  | x :: xs =>
    if x = .char '\x7d' then .ok none
    else if isFirst then if x = .char '"' then .ok (some xs) else misplaced .name (x :: xs)
    else if x = .char ',' then
      match skipWhite xs with
      | [] => tooShort .endInValue
      | y :: ys =>
        if y = .char '"' then .ok (some ys)
        else misplaced (if y = .char '\x7d' then .trailingComma else .name) (y :: ys)
    else misplaced .objectSeparator (x :: xs)

def scanColon : Scanner := fun xs =>
  match skipWhite xs with
  | [] => tooShort .endInObject
  | x :: rest => if x = .char ':' then .ok rest else misplaced .colon (x :: rest)

/-- The rest of an object. A member is scanned after its name, with what is known from those
before. -/
def scanMembers {σ : Type} (member : σ → String → List Symbol → Except Flaw (σ × List Symbol)) :
    (fuel : Nat) → (isFirst : Bool) → σ → List Symbol → Except Flaw (σ × List Symbol)
  | 0, _, s, xs => .ok (s, xs)
  | fuel + 1, isFirst, s, xs => do
    match ← nextName? isFirst xs with
    | none => return (s, (skipWhite xs).drop 1)
    | some ys =>
      let (name, rest) ← scanText ys
      let (s, rest) ← member s name rest
      scanMembers member fuel false s rest

/-- An object after its brace. -/
def scanObject {σ : Type}
    (member : σ → String → List Symbol → Except Flaw (σ × List Symbol)) (s : σ) (xs : List Symbol) :
    Except Flaw (σ × List Symbol) :=
  (scanMembers member (xs.length + 1) true s xs).mapError (·.settle leaveObject)

/-- An object of members with any names. -/
def scanDict (value : Scanner) : Scanner := fun xs => do
  let member (_ : Unit) (_ : String) (rest : List Symbol) := do
    return ((), ← value (← scanColon rest))
  return (← scanObject member () xs).2

/-- A value that is taken whole, with parts that `inner` scans; without one there must be no
parts. -/
def scanPart (inner? : Option Scanner) (xs : List Symbol) : Except Flaw (Found × List Symbol) := do
  let (f, rest) ← scanFound xs
  match f, inner? with
  | .sequence, none | .map, none => throw (.next .tooDeep rest)
  | .sequence, some inner => return (f, ← scanList inner (rest.drop 1))
  | .map, some inner => return (f, ← scanDict inner (rest.drop 1))
  | _, _ => return (f, rest)

/-- A value that is taken whole, with parts at most `room - 1` deep. -/
def scanWhole : (room : Nat) → List Symbol → Except Flaw (Found × List Symbol)
  | 0 => scanPart none
  | 1 => scanPart none
  | room + 2 => scanPart (some fun xs => (scanWhole (room + 1) xs).map (·.2))

/-- A name that is passed over, and the colon after it. -/
def passName : Scanner := fun xs => do
  match skipWhite xs with
  | [] => tooShort .endInObject
  | x :: rest =>
    if x = .char '"' then scanColon (← scanString false .start rest).2
    else misplaced .name (x :: rest)

/-- What holds a value that is passed over. -/
inductive Frame where
  | list
  | object
  deriving DecidableEq

namespace Frame

def closing : Frame → Char
  | .list => ']'
  | .object => '\x7d'

/-- The fault of a text that ends inside. -/
def ending : Frame → SyntaxFault
  | .list => .endInList
  | .object => .endInObject

/-- The fault of what is neither the end nor a comma. -/
def separator : Frame → SyntaxFault
  | .list => .listSeparator
  | .object => .objectSeparator

end Frame

mutual

/-- Passes over a value, and over what is left of the frames around it. -/
def passValue : (fuel : Nat) → List Frame → Scanner
  | 0, _, xs => .ok xs
  | fuel + 1, frames, xs => do
    match skipWhite xs with
    | [] => tooShort .endInValue
    | x :: rest =>
      match x.shown with
      | 'n' => passOn fuel true frames (← scanWord ['u', 'l', 'l'] rest)
      | 't' => passOn fuel true frames (← scanWord ['r', 'u', 'e'] rest)
      | 'f' => passOn fuel true frames (← scanWord ['a', 'l', 's', 'e'] rest)
      | '"' => passOn fuel true frames (← scanString false .start rest).2
      | '[' => passOn fuel false (.list :: frames) rest
      | '\x7b' => passOn fuel false (.object :: frames) rest
      | c =>
        match NumberState.start? c with
        | none => misplaced .value (x :: rest)
        | some n => passOn fuel true frames (← scanNumber false n rest).2

/-- Passes over what is left of the frames, after a part or at the start of the innermost. -/
def passOn : (fuel : Nat) → (isAfter : Bool) → List Frame → Scanner
  | 0, _, _, xs => .ok xs
  | _, _, [], xs => .ok xs
  | fuel + 1, isAfter, frame :: outer, xs => do
    match skipWhite xs with
    | [] => tooShort frame.ending
    | x :: rest =>
      if x = .char frame.closing then passOn fuel true outer rest
      else if isAfter && x ≠ .char ',' then misplaced frame.separator (x :: rest)
      else
        let part := if isAfter then rest else x :: rest
        passValue fuel (frame :: outer) (← if frame = .object then passName part else pure part)

end

/-- Passes over a value of any kind. -/
def scanAny : Scanner := fun xs => passValue (2 * xs.length + 2) [] xs

end Provision.Json
