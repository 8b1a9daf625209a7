import Provision.Text.Alphanumeric
import Provision.Text.Blank
import Provision.Text.Hexadecimal

/-!
The patterns that the values of fields can be asked to match. They are regular expressions, of which
no more is kept than how their parts are nested, since there are no values to match.
-/
namespace Provision.Log

/-- Why a text is no pattern, or one that cannot be matched. -/
inductive PatternFault where
  | form
  | boundary
  deriving DecidableEq

def PatternFault.message : PatternFault → String
  | .form => "error building NFA"
  | .boundary =>
    "unsupported regex feature for DFAs: cannot build DFAs for regexes with Unicode word " ++
      "boundaries; switch to ASCII word boundaries, or heuristically enable Unicode word " ++
      "boundaries or use a different regex engine"

inductive Pattern where
  | empty
  /-- From here on other modes hold. -/
  | modes
  | plain
  /-- The boundary of a word in any script. -/
  | boundary
  | compound (parts : List Pattern)

namespace Pattern

mutual

/-- How deep the parts are nested. -/
def depth : Pattern → Nat
  | .compound parts => depthOfAll parts + 1
  | _ => 0

def depthOfAll : List Pattern → Nat
  | [] => 0
  | p :: ps => Nat.max p.depth (depthOfAll ps)

end

mutual

def hasBoundary : Pattern → Bool
  | .boundary => true
  | .compound parts => anyHasBoundary parts
  | _ => false

def anyHasBoundary : List Pattern → Bool
  | [] => false
  | p :: ps => p.hasBoundary || anyHasBoundary ps

end

/-- One part after another; they are given in reverse. -/
def sequence : List Pattern → Pattern
  | [] => .empty
  | [p] => p
  | ps => .compound ps.reverse

/-- One branch or another; they are given in reverse. -/
def choice : List Pattern → Pattern
  | [p] => p
  | ps => .compound ps.reverse

/-- How the text of a pattern is understood. -/
structure Modes where
  /-- Upper and lower case are the same. -/
  isCaseless : Bool
  /-- Characters are those of any script. -/
  isUnicode : Bool
  /-- White space counts for nothing, nor does what follows a number sign on its line. -/
  isSpaced : Bool

namespace Modes

def usual : Modes := ⟨false, true, false⟩

/-- Whether a mode holds after flags, and those after a minus sign switch off. -/
def after (flags : List Char) (flag : Char) (holds : Bool) : Bool :=
  (flags.takeWhile (· ≠ '-')).contains flag || (!flags.contains flag && holds)

def switch (m : Modes) (flags : List Char) : Modes :=
  ⟨after flags 'i' m.isCaseless, after flags 'u' m.isUnicode, after flags 'x' m.isSpaced⟩

/-- Leaves out white space and remarks. -/
def skipRemarks : (isRemark : Bool) → List Char → List Char
  | _, [] => []
  | true, c :: cs => skipRemarks (c ≠ '\n') cs
  | false, c :: cs =>
    if Text.isSpace c then skipRemarks false cs
    else if c = '#' then skipRemarks true cs
    else c :: cs

def skip (m : Modes) (cs : List Char) : List Char := if m.isSpaced then skipRemarks false cs else cs

/-- The next character that may matter. -/
def next? (m : Modes) (cs : List Char) : Option Char :=
  if m.isSpaced then
    match cs.dropWhile Text.isSpace with
    | '#' :: cs => (cs.dropWhile Text.isSpace).head?
    | cs => cs.head?
  else cs.head?

end Modes

/-- What stands between the operators. -/
inductive Item where
  | char (c : Char) (isByte : Bool)
  /-- A class of characters, such as the digits, or its complement. -/
  | kind (isComplement : Bool)
  | any
  /-- A place between characters. -/
  | place (isBoundary : Bool)

/-- Beyond ASCII neither cases nor kinds of characters are known, and nothing may match a part of a
character. -/
def Modes.admits (m : Modes) : Item → Bool
  | .char c isByte => if m.isUnicode then !m.isCaseless else !isByte || c.toNat < 0x80
  | .kind isComplement => !m.isUnicode && !isComplement
  | .any => m.isUnicode
  | .place _ => true

def Modes.admitsInSet (m : Modes) : Item → Bool
  | .char c _ => if m.isUnicode then !m.isCaseless else c.toNat < 0x80
  | .kind isComplement => !m.isUnicode && !isComplement
  | _ => false

/-- The class of a name, or its complement, in a set. -/
def Modes.admitsNamed (m : Modes) (isComplement : Bool) : Bool :=
  if m.isUnicode then !m.isCaseless else !isComplement

def Modes.pattern (m : Modes) : Item → Pattern
  | .place true => if m.isUnicode then .boundary else .plain
  | _ => .plain

/-- Hexadecimal digits of a code point. -/
def readCode (m : Modes) : (digits : Nat) → Nat → List Char → Option (Char × List Char)
  | 0, n, cs => if n.isValidChar then some (Char.ofNat n, cs) else none
  | k + 1, n, cs =>
    match m.skip cs with
    | [] => none
    | c :: cs => (Text.hexDigit? c).bind fun d => readCode m k (16 * n + d) cs

/-- ASCII characters without a meaning of their own may be escaped. -/
def isEscapable (c : Char) : Bool := c.toNat < 0x80 && !c.isAlphanum && c ≠ '<' && c ≠ '>'

/-- What follows a backslash. -/
def readEscape (m : Modes) : List Char → Option (Item × List Char)
  | [] => none
  | c :: cs =>
    if c = 'x' then (readCode m 2 0 cs).map fun (c, cs) => (.char c true, cs)
    else if c = 'u' then (readCode m 4 0 cs).map fun (c, cs) => (.char c false, cs)
    else if c = 'U' then (readCode m 8 0 cs).map fun (c, cs) => (.char c false, cs)
    else if ['d', 's', 'w'].contains c then some (.kind false, cs)
    else if ['D', 'S', 'W'].contains c then some (.kind true, cs)
    else if ['A', 'z'].contains c then some (.place false, cs)
    else if ['b', 'B', '<', '>'].contains c then some (.place true, cs)
    else if isEscapable c || ['a', 'f', 't', 'n', 'r', 'v'].contains c then some (.char c false, cs)
    else none

def readItem (m : Modes) : List Char → Option (Item × List Char)
  | [] => none
  | '\\' :: cs => readEscape m cs
  | '.' :: cs => some (.any, cs)
  | '^' :: cs => some (.place false, cs)
  | '$' :: cs => some (.place false, cs)
  | c :: cs => some (.char c false, cs)

def readSetItem (m : Modes) : List Char → Option (Item × List Char)
  | [] => none
  | '\\' :: cs => readEscape m cs
  | c :: cs => some (.char c false, cs)

/-- An item of a set, or a range of characters. -/
def readRange (m : Modes) (cs : List Char) : Option (List Char) := do
  let (a, rest) ← readSetItem m cs
  guard (m.admitsInSet a)
  match m.skip rest with
  | '-' :: rest =>
    if m.next? rest = some ']' || m.next? rest = some '-' then return '-' :: rest
    let (b, rest) ← readSetItem m (m.skip rest)
    match a, b with
    | .char c _, .char d _ =>
      guard (c ≤ d && m.admitsInSet b)
      return rest
    | _, _ => none
  | rest => return rest

def classNames : List String :=
  ["alnum", "alpha", "ascii", "blank", "cntrl", "digit", "graph", "lower", "print",
    "punct", "space", "upper",
    "word", "xdigit"]

/-- What follows the bracket of a class with a name between colons: whether it is a complement, and
the rest. -/
def named? : List Char → Option (Bool × List Char)
  | ':' :: cs =>
    let isComplement := cs.head? = some '^'
    let cs := if isComplement then cs.drop 1 else cs
    let name := cs.takeWhile (· ≠ ':')
    match cs.drop name.length with
    | ':' :: ']' :: rest =>
      if classNames.contains (String.ofList name) then some (isComplement, rest) else none
    | _ => none
  | _ => none

/-- Enters a set, past the mark of a complement. -/
def enterSet (m : Modes) (cs : List Char) : Option (List Char) :=
  match m.skip cs with
  | '^' :: rest => if m.isUnicode then some rest else none
  | rest => some rest

/-- The items of a set after what is left of an operator. -/
def setOf (left : Option Pattern) (items : List Pattern) : Pattern :=
  match left with
  | none => sequence items
  | some p => .compound [p, sequence items]

/-- The rest of a set. At its start minus signs stand for themselves, and so does a bracket that
would close it. -/
def readSet (m : Modes) :
    (fuel : Nat) → (isStart : Bool) → Option Pattern → List Pattern → List Char →
    Option (Pattern × List Char)
  | 0, _, _, _, _ => none
  | fuel + 1, isStart, left, items, cs => do
    match m.skip cs with
    | [] => none
    | ']' :: rest =>
      if isStart && items.isEmpty then
        guard (m.admitsInSet (.char ']' false))
        readSet m fuel false left [.plain] rest
      else return (setOf left items, rest)
    | '[' :: rest =>
      match named? rest with
      | some (isComplement, rest) =>
        guard (m.admitsNamed isComplement)
        readSet m fuel false left (.plain :: items) rest
      | none =>
        let (p, rest) ← readSet m fuel true none [] (← enterSet m rest)
        readSet m fuel false left (.compound [p] :: items) rest
    | c :: rest =>
      if isStart && c = '-' then
        guard (m.admitsInSet (.char '-' false))
        readSet m fuel true left (.plain :: items) rest
      else if ['&', '-', '~'].contains c && rest.head? = some c then
        readSet m fuel false (some (setOf left items)) [] (rest.drop 1)
      else readSet m fuel false left (.plain :: items) (← readRange m (c :: rest))

/-- The flags are known ones, each once, and some follow the minus sign. -/
def areFlags (flags : List Char) : Bool :=
  flags.all (['i', 'm', 's', 'U', 'u', 'R', 'x', '-'].contains ·) &&
    flags.eraseDups.length == flags.length &&
    flags.getLast? ≠ some '-'

/-- Names of groups begin with a letter. -/
def isGroupName : List Char → Bool
  | [] => false
  | c :: cs =>
    (c = '_' || Text.isAlphabetic c) &&
      cs.all fun c => ['_', '.', '[', ']'].contains c || Text.isAlphanumeric c

/-- What a parenthesis opens: a group, perhaps with a name, or nothing but a change of modes. -/
inductive Opening where
  | group (m : Modes) (name : Option String)
  | modes (m : Modes)

/-- The name of a group, and the group. -/
def readName (m : Modes) (cs : List Char) : Option (Opening × List Char) :=
  let name := cs.takeWhile (· ≠ '>')
  match cs.drop name.length with
  | [] => none
  | _ :: rest =>
    if isGroupName name then some (.group m (some (String.ofList name)), rest) else none

/-- What follows a parenthesis. -/
def readOpening (m : Modes) : List Char → Option (Opening × List Char)
  | '?' :: 'P' :: '<' :: rest => readName m rest
  | '?' :: '<' :: rest => readName m rest
  | '?' :: cs =>
    let flags := cs.takeWhile fun c => c ≠ ':' && c ≠ ')'
    match areFlags flags, cs.drop flags.length with
    | true, ':' :: rest => some (.group (m.switch flags) none, rest)
    | true, _ :: rest => if flags.isEmpty then none else some (.modes (m.switch flags), rest)
    | _, _ => none
  | cs => some (.group m none, cs)

/-- The rest of a group, up to the parenthesis that closes it or the end of the text. The parts of a
branch and the branches before are in reverse. A brace would count repetitions, but the text of a
value holds no brace that closes it. -/
def readGroup :
    (fuel : Nat) → Modes → (names : List String) → (branches parts : List Pattern) → List Char →
    Option (Pattern × List String × List Char)
  | 0, _, _, _, _, _ => none
  | fuel + 1, m, names, branches, parts, cs => do
    match m.skip cs with
    | [] => return (choice (sequence parts :: branches), names, [])
    | ')' :: rest => return (choice (sequence parts :: branches), names, ')' :: rest)
    | '|' :: rest => readGroup fuel m names (sequence parts :: branches) [] rest
    | '(' :: rest =>
      match ← readOpening m (m.skip rest) with
      | (.modes m, rest) => readGroup fuel m names branches (.modes :: parts) rest
      | (.group inside name, rest) =>
        guard (name.all fun n => !names.contains n)
        match ← readGroup fuel inside (name.toList ++ names) [] [] rest with
        | (p, names, ')' :: rest) => readGroup fuel m names branches (.compound [p] :: parts) rest
        | _ => none
    | '[' :: rest =>
      let (p, rest) ← readSet m fuel true none [] (← enterSet m rest)
      readGroup fuel m names branches (.compound [p] :: parts) rest
    | c :: rest =>
      if ['?', '*', '+'].contains c then
        match parts with
        | [] | .modes :: _ => none
        | p :: parts =>
          let rest := if rest.head? = some '?' then rest.drop 1 else rest
          readGroup fuel m names branches (.compound [p] :: parts) rest
      else
        guard (c ≠ '\x7b')
        let (item, rest) ← readItem m (c :: rest)
        guard (m.admits item)
        readGroup fuel m names branches (m.pattern item :: parts) rest

/-- The pattern of a text. -/
def parse? (s : String) : Option Pattern :=
  match readGroup (s.length + 1) .usual [] [] [] s.toList with
  | some (p, _, []) => some p
  | _ => none

/-- How deep the parts of a pattern may be nested. -/
def greatestDepth : Nat := 250

/-- What is wrong with a text as a pattern. -/
def fault? (s : String) : Option PatternFault :=
  match parse? s with
  | none => some .form
  | some p =>
    if greatestDepth < p.depth then some .form
    else if p.hasBoundary then some .boundary
    else none

example : fault? "^(?<n>a|[^x-z[:digit:]]*?)$" = none := by decide +kernel
example : ["(", "a)", "*", "[z-a]", "(?)", "\\d", "(?i)a", "(?-u)."].map fault? =
    List.replicate 8 (some .form) := by decide +kernel
example : fault? "\\bin" = some .boundary ∧ fault? "(?-u)\\bin" = none := by decide +kernel

end Pattern
end Provision.Log
