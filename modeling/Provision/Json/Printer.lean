import Provision.Json.Basic
import Provision.Text.Hexadecimal

/-!
Writing JSON, on one line without blanks or over several lines. Members are written in their order,
and in strings only quotes, backslashes and control characters are escaped.
-/
namespace Provision.Json

/-- How the parts of a value are set apart: not at all, or each on a line of its own, two blanks
deeper than the value. -/
inductive Layout where
  | compact
  | indented (depth : Nat)
  deriving DecidableEq

namespace Layout

def inner : Layout → Layout
  | .compact => .compact
  | .indented d => .indented (d + 1)

/-- What stands before a part. -/
def lineBreak : Layout → List Char
  | .compact => []
  | .indented d => '\n' :: List.replicate (2 * d) ' '

def colon : Layout → List Char
  | .compact => [':']
  | .indented _ => [':', ' ']

end Layout

/-- One character inside a string. -/
def escapeChar (c : Char) : List Char :=
  if c = '"' then ['\\', '"']
  else if c = '\\' then ['\\', '\\']
  else if c = '\x08' then ['\\', 'b']
  else if c = '\x0c' then ['\\', 'f']
  else if c = '\n' then ['\\', 'n']
  else if c = '\r' then ['\\', 'r']
  else if c = '\t' then ['\\', 't']
  else if c.toNat < 0x20 then
    ['\\', 'u', '0', '0', Text.hexLetter (c.toNat / 16), Text.hexLetter (c.toNat % 16)]
  else [c]

/-- A string that stands for no text is written with half a pair, or with what bytes without a
character are seen as. -/
def writeStr : Str → List Char
  | .ok s => '"' :: s.toList.flatMap escapeChar ++ ['"']
  | .error .lone => ['"', '\\', 'u', 'd', 'c', '0', '0', '"']
  | .error .unpaired => ['"', '\\', 'u', 'd', '8', '0', '0', '"']
  | .error .encoding => ['"', '\ufffd', '"']

def Numeral.write (n : Numeral) : List Char :=
  (if n.negative then ['-'] else []) ++ Nat.toDigits 10 n.whole ++
  (if n.fraction.isEmpty then [] else '.' :: n.fraction.map fun d =>
    Char.ofNat ('0'.toNat + d.val)) ++
  (match n.exponent with
    | none => []
    | some e => 'e' :: (if e < 0 then ['-'] else []) ++ Nat.toDigits 10 e.natAbs)

mutual

def write (l : Layout) : Json → List Char
  | .null => ['n', 'u', 'l', 'l']
  | .bool true => ['t', 'r', 'u', 'e']
  | .bool false => ['f', 'a', 'l', 's', 'e']
  | .number n => n.write
  | .string s => writeStr s
  | .array [] => ['[', ']']
  | .array (v :: vs) =>
    '[' :: l.inner.lineBreak ++ write l.inner v ++ writeItems l.inner vs ++ l.lineBreak ++ [']']
  | .object [] => ['\x7b', '\x7d']
  | .object ((k, v) :: ms) =>
    '\x7b' :: l.inner.lineBreak ++ writeStr k ++ l.inner.colon ++ write l.inner v ++
      writeMembers l.inner ms ++ l.lineBreak ++ ['\x7d']

/-- The items after the first. -/
def writeItems (l : Layout) : List Json → List Char
  | [] => []
  | v :: vs => ',' :: l.lineBreak ++ write l v ++ writeItems l vs

/-- The members after the first. -/
def writeMembers (l : Layout) : List (Str × Json) → List Char
  | [] => []
  | (k, v) :: ms => ',' :: l.lineBreak ++ writeStr k ++ l.colon ++ write l v ++ writeMembers l ms

end

/-- The value on one line. -/
def compact (v : Json) : String := String.ofList (v.write .compact)

/-- The value over several lines. -/
def indented (v : Json) : String := String.ofList (v.write (.indented 0))

example : (Json.object [(.ok "a", .array [.null]), (.ok "b\n\x01", .object [])]).compact =
    "\x7b\"a\":[null],\"b\\n\\u0001\":\x7b\x7d\x7d" := by cbv

example : (Json.object [(.ok "a", .array [.null, .bool true])]).indented =
    "\x7b\n  \"a\": [\n    null,\n    true\n  ]\n\x7d" := by cbv

end Provision.Json
