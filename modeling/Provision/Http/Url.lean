/-!
Web addresses: what is asked for, and from whom. Paths are normalized: steps up and steps that stay
are taken, and what cannot stand in a path is percent-encoded.
-/
namespace Provision.Http

structure Url where
  scheme : String
  authority : String
  path : String
  query : Option String
  deriving DecidableEq

namespace Url

/-- What is asked for. -/
def target (u : Url) : String :=
  match u.query with
  | none => u.path
  | some q => u.path ++ "?" ++ q

def text (u : Url) : String := u.scheme ++ "://" ++ u.authority ++ u.target

/-- The host, and what follows it. A host in brackets may hold colons. -/
def splitHost (u : Url) : List Char × List Char :=
  match (u.authority.toList.reverse.takeWhile (· ≠ '@')).reverse with
  | '[' :: cs => (cs.takeWhile (· ≠ ']'), (cs.dropWhile (· ≠ ']')).drop 1)
  | cs => (cs.takeWhile (· ≠ ':'), cs.dropWhile (· ≠ ':'))

def host (u : Url) : String := String.ofList u.splitHost.1

/-- The number of the service on the host, where the address gives one. -/
def portNumber? (u : Url) : Option Nat :=
  match u.splitHost.2 with
  | ':' :: digits => (String.ofList digits).toNat?
  | _ => none

def upperHex (n : Nat) : Char := Char.ofNat (if n < 10 then '0'.toNat + n else 'A'.toNat + (n - 10))

/-- A character by its bytes. -/
def percentEncode (c : Char) : List Char :=
  (String.singleton c).toUTF8.toList.flatMap fun b =>
    ['%', upperHex (b.toNat / 16), upperHex (b.toNat % 16)]

/-- What cannot stand in a query. -/
def isQueryUnsafe (c : Char) : Bool :=
  c.toNat ≤ 0x20 || 0x7F ≤ c.toNat || c = '"' || c = '#' || c = '<' || c = '>' || c = '\''

/-- What cannot stand in a path. -/
def isPathUnsafe (c : Char) : Bool :=
  c.toNat ≤ 0x20 || 0x7F ≤ c.toNat || ['"', '#', '<', '>', '?', '\x60', '\x7b', '\x7d'].contains c

def encode (isUnsafe : Char → Bool) (cs : List Char) : List Char :=
  cs.flatMap fun c => if isUnsafe c then percentEncode c else [c]

/-- A segment that stays where it is. -/
def isStay (seg : List Char) : Bool :=
  seg = ['.'] || seg = ['%', '2', 'e'] || seg = ['%', '2', 'E']

/-- A segment that goes one step up: two dots, each written in either way. -/
def isUp : List Char → Bool
  | '.' :: rest => isStay rest
  | '%' :: '2' :: 'e' :: rest => isStay rest
  | '%' :: '2' :: 'E' :: rest => isStay rest
  | _ => false

/-- A segment that names a drive: a letter, and a colon or bar. -/
def isDrive : List Char → Bool
  | [letter, mark] => letter.isAlpha && (mark = ':' || mark = '|')
  | _ => false

/-- The segments after a step up from `done`, which holds them from the last. None leads out of a
drive. -/
def leave : List (List Char) → List (List Char)
  | [] => []
  | seg :: done => if isDrive seg then seg :: done else done

/-- The pieces between slashes of either kind. -/
def segments : List Char → List (List Char)
  | [] => [[]]
  | c :: cs =>
    if c = '/' ∨ c = '\\' then [] :: segments cs
    else
      match segments cs with
      | [] => [[c]]
      | s :: ss => (c :: s) :: ss

/-- The segments left after all steps are taken; `done` holds those before, from the last. -/
def normalize (done : List (List Char)) : List (List Char) → List (List Char)
  | [] => done.reverse
  | [seg] =>
    if isUp seg then ([] :: leave done).reverse
    else if isStay seg then ([] :: done).reverse
    else (seg :: done).reverse
  | seg :: rest =>
    if isUp seg then normalize (leave done) rest
    else if isStay seg then normalize done rest
    else normalize (seg :: done) rest

def isSlash (c : Char) : Bool := c = '/' || c = '\\'

/-- The path of the characters after the authority. -/
def pathOf (cs : List Char) : String :=
  let segs := normalize [] (segments (if cs.head?.any isSlash then cs.drop 1 else cs))
  String.ofList (segs.flatMap fun s => '/' :: encode isPathUnsafe s)

/-- What cannot stand in an authority. -/
def isAuthorityChar (c : Char) : Bool :=
  0x20 < c.toNat && c.toNat ≠ 0x7F &&
    !(['<', '>', '^', '|', '%', '"', '\x60', '\x7b', '\x7d'].contains c)

/-- The scheme of an address of the web, and what follows it. -/
def splitScheme (cs : List Char) : Option (String × List Char) :=
  let name := cs.takeWhile (· ≠ ':')
  let scheme := String.ofList (name.map Char.toLower)
  if scheme = "http" ∨ scheme = "https" then
    match cs.dropWhile (· ≠ ':') with
    | _ :: rest => if rest.head?.any isSlash then some (scheme, rest.dropWhile isSlash) else none
    | [] => none
  else none

/-- Reads an address. Only those of the web, with an authority, are of use. -/
def parse? (s : String) : Option Url := do
  let kept := s.toList.filter fun c => c ≠ '\t' && c ≠ '\n' && c ≠ '\r'
  let isEdge (c : Char) : Bool := c.toNat ≤ 0x20
  let cs := ((kept.dropWhile isEdge).reverse.dropWhile isEdge).reverse
  let (scheme, rest) ← splitScheme cs
  let ends (c : Char) : Bool := isSlash c || c = '?' || c = '#'
  let authority := rest.takeWhile fun c => !ends c
  let rest := (rest.dropWhile fun c => !ends c).takeWhile (· ≠ '#')
  if authority.isEmpty || !authority.all isAuthorityChar then none
  else
    let path := pathOf (rest.takeWhile (· ≠ '?'))
    let query :=
      match rest.dropWhile (· ≠ '?') with
      | [] => none
      | _ :: q => some (String.ofList (encode isQueryUnsafe q))
    return ⟨scheme, String.ofList authority, path, query⟩

example : (parse? "http://h/a/./b//c d").map text = some "http://h/a/b//c%20d" := by decide +kernel
example : (parse? "http://h/a/../..").map text = some "http://h/" := by decide +kernel
example : (parse? "http://h/c:/../../x").map text = some "http://h/c:/x" := by decide +kernel
example : parse? "/relative" = none := by decide +kernel

end Url
end Provision.Http
