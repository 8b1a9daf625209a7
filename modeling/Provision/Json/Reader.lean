import Provision.Json.Literal

/-!
Reading a text as JSON, one character at a time and from the left. A state says what may come next
and holds what has been read of the values that are still open; reading is a fold of `Reader.step`.
-/
namespace Provision.Json

/-- What surrounds a value that is being read. Items and members read so far are in reverse. -/
inductive Context where
  | top
  | item (done : List Json) (outer : Context)
  | member (done : List (Str × Json)) (name : Str) (outer : Context)

inductive Reader where
  | value (ctx : Context)
  | firstItem (outer : Context)
  | nextItem (done : List Json) (outer : Context)
  | afterItem (done : List Json) (outer : Context)
  | firstName (outer : Context)
  | nextName (done : List (Str × Json)) (outer : Context)
  | colon (done : List (Str × Json)) (name : Str) (outer : Context)
  | afterMember (done : List (Str × Json)) (outer : Context)
  | word (next : Char) (rest : List Char) (v : Json) (ctx : Context)
  | number (n : NumberState) (ctx : Context)
  | string (s : StringState) (ctx : Context)
  | name (s : StringState) (done : List (Str × Json)) (outer : Context)
  | finished (v : Json)

/-- A value is complete. -/
def Context.close (v : Json) : Context → Reader
  | .top => .finished v
  | .item done outer => .afterItem (v :: done) outer
  | .member done name outer => .afterMember ((name, v) :: done) outer

namespace Reader

def start : Reader := .value .top

/-- The first character of a value. -/
def open? (ctx : Context) (c : Char) : Option Reader :=
  if c = '\x7b' then some (.firstName ctx)
  else if c = '[' then some (.firstItem ctx)
  else if c = '"' then some (.string .start ctx)
  else if c = 't' then some (.word 'r' ['u', 'e'] (.bool true) ctx)
  else if c = 'f' then some (.word 'a' ['l', 's', 'e'] (.bool false) ctx)
  else if c = 'n' then some (.word 'u' ['l', 'l'] .null ctx)
  else (NumberState.start? c).map (.number · ctx)

def stepAfterItem (done : List Json) (outer : Context) (c : Char) : Option Reader :=
  if isWhite c then some (.afterItem done outer)
  else if c = ',' then some (.nextItem done outer)
  else if c = ']' then some (outer.close (.array done.reverse))
  else none

def stepAfterMember (done : List (Str × Json)) (outer : Context) (c : Char) : Option Reader :=
  if isWhite c then some (.afterMember done outer)
  else if c = ',' then some (.nextName done outer)
  else if c = '\x7d' then some (outer.close (.object done.reverse))
  else none

def stepFinished (v : Json) (c : Char) : Option Reader :=
  if isWhite c then some (.finished v) else none

/-- A character right after a value. -/
def stepAfter (v : Json) (ctx : Context) (c : Char) : Option Reader :=
  match ctx with
  | .top => stepFinished v c
  | .item done outer => stepAfterItem (v :: done) outer c
  | .member done key outer => stepAfterMember ((key, v) :: done) outer c

/-- The state after one more character; nothing when the text cannot go on with it. -/
def step (r : Reader) (c : Char) : Option Reader :=
  match r with
  | .value ctx => if isWhite c then some r else open? ctx c
  | .firstItem outer =>
    if isWhite c then some r
    else if c = ']' then some (outer.close (.array []))
    else open? (.item [] outer) c
  | .nextItem done outer => if isWhite c then some r else open? (.item done outer) c
  | .afterItem done outer => stepAfterItem done outer c
  | .firstName outer =>
    if isWhite c then some r
    else if c = '\x7d' then some (outer.close (.object []))
    else if c = '"' then some (.name .start [] outer)
    else none
  | .nextName done outer =>
    if isWhite c then some r
    else if c = '"' then some (.name .start done outer)
    else none
  | .colon done key outer =>
    if isWhite c then some r
    else if c = ':' then some (.value (.member done key outer))
    else none
  | .afterMember done outer => stepAfterMember done outer c
  | .word next rest v ctx =>
    if c = next then
      match rest with
      | [] => some (ctx.close v)
      | d :: ds => some (.word d ds v ctx)
    else none
  | .number n ctx =>
    match n.step c with
    | .error _ => none
    | .ok (some m) => some (.number m ctx)
    | .ok none => stepAfter (.number n.numeral) ctx c
  | .string s ctx =>
    match s.step c with
    | .error _ => none
    | .ok (.inl t) => some (.string t ctx)
    | .ok (.inr str) => some (ctx.close (.string str))
  | .name s done outer =>
    match s.step c with
    | .error _ => none
    | .ok (.inl t) => some (.name t done outer)
    | .ok (.inr str) => some (.colon done str outer)
  | .finished v => stepFinished v c

/-- A byte that is no character spoils the string that it stands in. -/
def spoil : Reader → Reader
  | .string s ctx => .string { s with isSpoilt := true } ctx
  | .name s done outer => .name { s with isSpoilt := true } done outer
  | r => r

/-- The state after one more symbol. -/
def read (r : Reader) : Symbol → Option Reader
  | .char c => r.step c
  | .stray b => r.spoil.step (Symbol.stray b).shown

/-- The state after all of the symbols. -/
def run : Reader → List Symbol → Option Reader
  | r, [] => some r
  | r, x :: xs => (r.read x).bind (·.run xs)

/-- The value that has been read when the text ends here. -/
def finish? : Reader → Option Json
  | .finished v => some v
  | .number n .top => if n.isComplete then some (.number n.numeral) else none
  | _ => none

end Reader

/-- The value of a text, if the text is JSON. Bytes that are no characters may stand in its
strings. -/
def readSymbols (xs : List Symbol) : Option Json := (Reader.start.run xs).bind Reader.finish?

/-- The value of a text, if the text is JSON. -/
def parse (s : String) : Option Json := readSymbols (Symbol.ofText s)

example : parse "\x7b" = none := rfl

end Provision.Json
