import Provision.Log
import Provision.Log.Pattern
import Provision.Text.Unsigned
import Provision.Text.Width

/-!
Which log lines are shown. A filter is a list of directives; of those that a line falls under the
most specific counts.
-/
namespace Provision.Log

/-- The least level that is shown; nothing is without one. -/
abbrev Threshold : Type := Option Level

/-- A field that is asked for, and its value if that matters. -/
structure FieldDemand where
  name : String
  value : Option String
  deriving DecidableEq

/-- A threshold for the lines from the sources whose name begins with a text, of these for the lines
in a span of a certain name, and of these for the lines with a field. -/
structure Directive where
  target : String
  span : Option String
  field : Option FieldDemand
  threshold : Threshold
  deriving DecidableEq

inductive DirectiveFault where
  | form
  | level
  | value (fault : PatternFault)
  /-- A part would begin or end inside a character. No text is read any further then. -/
  | severed
  deriving DecidableEq

def DirectiveFault.message : DirectiveFault → String
  | .form => "invalid filter directive"
  | .value fault => "invalid field filter: " ++ fault.message
  | .severed => "a part does not end with a character"
  | .level =>
    "error parsing level filter: expected one of \"off\", \"error\", \"warn\", \"info\", " ++
      "\"debug\", \"trace\", or a number 0-5"

/-- The thresholds, each at the place of its number. -/
def thresholds : List (String × Threshold) :=
  [("off", none), ("error", some .error), ("warn", some .warn), ("info", some .info),
    ("debug", some .debug), ("trace", some .trace)]

/-- A threshold by its number, or by its name in letters of either case. -/
def threshold? (s : String) : Option Threshold :=
  match Text.readUnsigned UInt64.size s with
  | .ok n => thresholds[n]?.map (·.2)
  | .error _ =>
    if s = "" then some (some .error)
    else thresholds.lookup (String.ofList (s.toList.map Char.toLower))

namespace Directive

/-- What follows the first `n` bytes. -/
def dropBytes (n : Nat) (cs : List Char) : Except DirectiveFault (List Char) :=
  match Text.splitBytes? n cs with
  | some (_, rest) => .ok rest
  | none => .error .severed

/-- The first `n` bytes. -/
def takeBytes (n : Nat) (cs : List Char) : Except DirectiveFault (List Char) :=
  match Text.splitBytes? n cs with
  | some (start, _) => .ok start
  | none => .error .severed

/-- The part of a text between two bytes. -/
def part (full : List Char) (lo hi : Nat) : Except DirectiveFault String := do
  return String.ofList (← takeBytes (hi - lo) (← dropBytes lo full))

/-- The threshold that is written from byte `i` on; all is shown when nothing is. -/
def readThreshold (full : List Char) (i : Nat) : Except DirectiveFault Threshold := do
  match ← dropBytes i full with
  | [] => return some .trace
  | cs =>
    match threshold? (String.ofList cs) with
    | some t => return t
    | none => throw .level

/-- What may follow a bracket: a threshold after an equals sign. -/
def readTail (full : List Char) (i : Nat) : List Char → Except DirectiveFault Threshold
  | [] => .ok (some .trace)
  | '=' :: _ => readThreshold full (i + 1)
  | _ => .error .form

def isDecimal (cs : List Char) : Bool :=
  let whole := cs.takeWhile Char.isDigit
  let fraction :=
    match cs.drop whole.length with
    | '.' :: cs => (cs.takeWhile Char.isDigit, cs.dropWhile Char.isDigit)
    | cs => ([], cs)
  !(whole ++ fraction.1).isEmpty &&
    match fraction.2 with
    | [] => true
    | c :: cs =>
      let digits := if cs.head? = some '+' || cs.head? = some '-' then cs.drop 1 else cs
      (c = 'e' || c = 'E') && !digits.isEmpty && digits.all Char.isDigit

/-- Numbers have signs, points and exponents; there are infinite ones, and what is none. -/
def isNumber (s : String) : Bool :=
  let cs := s.toList
  let cs := if cs.head? = some '+' || cs.head? = some '-' then cs.drop 1 else cs
  isDecimal cs || ["inf", "infinity", "nan"].contains (String.ofList (cs.map Char.toLower))

/-- A value to be compared with: a number, or else a pattern. -/
def readValue (s : String) : Except DirectiveFault String :=
  if isNumber s then .ok s
  else
    match Pattern.fault? s with
    | none => .ok s
    | some fault => .error (.value fault)

/-- A field between braces. -/
def readField (s : String) : Except DirectiveFault FieldDemand := do
  if s = "" then throw .form
  let name := s.toList.takeWhile (· ≠ '=')
  match s.toList.drop name.length with
  | [] => return ⟨s, none⟩
  | _ :: value =>
    return ⟨String.ofList name, some (← readValue (String.ofList (value.takeWhile (· ≠ '='))))⟩

/-- The name of a span and a field in brackets; `rest` is what is seen from byte `i` on. -/
def readBrackets (full : List Char) (target : String) (i : Nat) (rest : List Char) :
    Except DirectiveFault Directive := do
  let name := rest.takeWhile fun c => c ≠ ']' && c ≠ '\x7b'
  let j := i + Text.byteLength name
  match rest.drop name.length with
  | ']' :: rest =>
    let span ← part full i j
    return ⟨target, some span, none, ← readTail full (j + 1) rest⟩
  | _ :: rest =>
    let span ← part full i j
    let field := rest.takeWhile (· ≠ '\x7d')
    let k := j + 1 + Text.byteLength field
    match rest.drop field.length with
    | [] => throw .form
    | _ :: rest =>
      let field ← readField (← part full (j + 1) k)
      match rest with
      | ']' :: rest =>
        let span := if span = "" then none else some span
        return ⟨target, span, some field, ← readTail full (k + 2) rest⟩
      | _ => throw .form
  | [] => throw .form

def startsTarget (c : Char) : Bool := c = '-' || c = ':' || c = '_' || Text.isAlphanumeric c

/-- A threshold for all lines, a source and its threshold, or a source alone, each of these with
brackets at will. Where the parts stand is found in the text without the white space around it, and
the parts are then taken from the same bytes of the whole text. -/
def read (s : String) : Except DirectiveFault Directive := do
  let full := s.toList
  match Text.stripBoth Text.isSpace full with
  | [] => throw .form
  | '[' :: rest => readBrackets full "" 1 rest
  | c :: cs =>
    if !startsTarget c then throw .form
    let name := (c :: cs).takeWhile fun c => c ≠ '=' && c ≠ '['
    let i := Text.byteLength name
    match (c :: cs).drop name.length with
    | [] =>
      match threshold? s with
      | some t => return ⟨"", none, none, t⟩
      | none => return ⟨s, none, none, some .trace⟩
    | '=' :: _ =>
      let target ← part full 0 i
      return ⟨target, none, none, ← readThreshold full (i + 1)⟩
    | _ :: rest => readBrackets full (← part full 0 i) (i + 1) rest

/-- Whether a line falls under the directive. No line lies in a span, and values are known of spans
only. -/
def covers (d : Directive) (l : Line) : Bool :=
  d.target.toList.isPrefixOf l.source.target.toList && d.span.isNone &&
    d.field.all fun f => f.value.isNone && l.hasField f.name

/-- Whether the first directive is no more specific than the second. A longer name is more specific,
and then a field; names of fields count by their order. -/
def yieldsTo (d e : Directive) : Bool :=
  if d.target.utf8ByteSize = e.target.utf8ByteSize then
    match d.field, e.field with
    | none, _ => true
    | some _, none => false
    | some f, some g => !(g.name < f.name)
  else d.target.utf8ByteSize < e.target.utf8ByteSize

end Directive

abbrev Filter : Type := List Directive

namespace Filter

/-- The pieces between commas that are not empty. -/
def pieces (s : String) : List String :=
  (s.toList.splitBy fun a b => a ≠ ',' && b ≠ ',').filterMap fun cs =>
    if cs = [','] then none else some (String.ofList cs)

/-- The filter of a text in which every directive has a meaning. -/
def parse (s : String) : Except DirectiveFault Filter := (pieces s).mapM Directive.read

/-- What is said of a directive that has no meaning. -/
def warning (d : String) (fault : DirectiveFault) : String :=
  "ignoring `" ++ d ++ "`: " ++ fault.message ++ "\n"

/-- The filter of the directives that have a meaning, and what is said of the others. There is none
when a part of a directive is severed. -/
def parseLossy (s : String) : Option (Filter × String) :=
  (pieces s).foldrM
    (fun d (filter, warnings) =>
      match Directive.read d with
      | .ok directive => some (directive :: filter, warnings)
      | .error .severed => none
      | .error fault => some (filter, warning d fault ++ warnings))
    ([], "")

/-- Without any directive errors are shown. -/
def orErrors : Filter → Filter
  | [] => [⟨"", none, none, some .error⟩]
  | ds => ds

/-- Of two directives that are equally specific the later. -/
def pick (best : Option Directive) (d : Directive) : Option Directive :=
  match best with
  | none => some d
  | some b => if b.yieldsTo d then some d else some b

def shows (f : Filter) (l : Line) : Bool :=
  match ((f.filter (·.covers l)).foldl pick none).bind (·.threshold) with
  | some level => level.rank ≤ l.level.rank
  | none => false

example : pieces "a=info,,b" = ["a=info", "b"] := by decide +kernel
example : Directive.read "a[\x7bb\x7d]=+1" =
    .ok ⟨"a", none, some ⟨"b", none⟩, some .error⟩ := by cbv
example : Directive.read "info " = .ok ⟨"info ", none, none, some .trace⟩ := by cbv

end Filter
end Provision.Log
