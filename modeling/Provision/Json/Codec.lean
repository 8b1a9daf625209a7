import Provision.Json.Scanner
import Provision.Dict

/-!
Codecs: how the values of a type are written as JSON, which JSON values are read as what, and what
first shows that a text is not read. A codec looks at the parts of a value in their order, and the
first fault counts.
-/
namespace Provision.Json

structure Codec (α : Type) where
  encode : α → Json
  decode : Json → Except Cause α
  /-- Goes over the texts of the values that are read. -/
  scan : Scanner

namespace Codec

variable {α : Type}

def string : Codec String where
  encode := text
  decode
    | .string (.ok s) => .ok s
    | v => .error (mismatch v .string)
  scan := scanUnless fun
    | .string _ => none
    | f => some (.type f .string)

def bool : Codec Bool where
  encode := .bool
  decode
    | .bool b => .ok b
    | v => .error (mismatch v .boolean)
  scan := scanUnless fun
    | .boolean _ => none
    | f => some (.type f .boolean)

/-- The integer that a number is, where it is one. -/
def integer? (v : Json) : Option Int :=
  match v with
  | .number n =>
    match n.number? with
    | some (.natural k) => some k
    | some (.negative k) => some k
    | _ => none
  | _ => none

def int64 : Codec Int64 where
  encode i := .number (.ofInt i.toInt)
  decode v :=
    match integer? v with
    | some k => if k < 0x8000000000000000 then .ok (.ofInt k) else .error (.value k .int64)
    | none => .error (mismatch v .int64)
  scan := scanUnless fun
    | .integer k => if k < 0x8000000000000000 then none else some (.value k .int64)
    | f => some (.type f .int64)

def uint64 : Codec UInt64 where
  encode n := .number (.ofNat n.toNat)
  decode v :=
    match integer? v with
    | some k => if 0 ≤ k then .ok (.ofNat k.toNat) else .error (.value k .uint64)
    | none => .error (mismatch v .uint64)
  scan := scanUnless fun
    | .integer k => if 0 ≤ k then none else some (.value k .uint64)
    | f => some (.type f .uint64)

/-- A value, or null. -/
def scanOption (scan : Scanner) : Scanner := fun xs =>
  match skipWhite xs with
  | .char 'n' :: rest => scanWord ['u', 'l', 'l'] rest
  | rest => scan rest

/-- Null stands for no value. -/
def option (c : Codec α) : Codec (Option α) where
  encode
    | none => .null
    | some a => c.encode a
  decode
    | .null => .ok none
    | v => (c.decode v).map some
  scan := scanOption c.scan

theorem option_decode_of_ne (c : Codec α) {v : Json} (h : v ≠ .null) :
    c.option.decode v = (c.decode v).map some := by
  cases v with
  | null => exact absurd rfl h
  | _ => rfl

def decodeItems (c : Codec α) : List Json → Except Cause (List α)
  | [] => .ok []
  | v :: vs =>
    match c.decode v with
    | .error e => .error e
    | .ok a => (decodeItems c vs).map (a :: ·)

def list (c : Codec α) : Codec (List α) where
  encode as := .array (as.map c.encode)
  decode
    | .array vs => decodeItems c vs
    | v => .error (mismatch v .sequence)
  scan := scanInside '[' .sequence (scanList c.scan)

/-- Puts members into a dictionary. -/
def decodeEntries (c : Codec α) : Dict α → List (Str × Json) → Except Cause (Dict α)
  | d, [] => .ok d
  | d, (k, v) :: ms =>
    match readStr k with
    | .error e => .error e
    | .ok k =>
      match c.decode v with
      | .error e => .error e
      | .ok a => decodeEntries c (d.insert k a) ms

/-- Of two members with one name the later counts. -/
def dict (c : Codec α) : Codec (Dict α) where
  encode d := .object (d.entries.map fun e => (.ok e.1, c.encode e.2))
  decode
    | .object ms => decodeEntries c ∅ ms
    | v => .error (mismatch v .map)
  scan := scanInside '\x7b' .map (scanDict c.scan)

/-- The value of a name in a list of values. -/
def byName (name : α → String) (all : List α) (s : String) : Except Cause α :=
  match all.find? fun a => name a == s with
  | some a => .ok a
  | none => .error (.unknownVariant s (all.map name))

/-- One of the names, after its first quote. -/
def scanName (names : List String) : Scanner := fun xs => do
  let (s, rest) ← scanText xs
  if names.contains s then return rest else throw (.here (.unknownVariant s names) rest)

/-- One of the names as the one member of an object, after its brace. -/
def scanVariant (names : List String) : Scanner := fun xs => do
  let rest ← match skipWhite xs with
    | [] => tooShort .endInObject
    | x :: rest =>
      if x = .char '"' then scanName names rest
      else misplaced (if x = .char '\x7d' then .value else .name) (x :: rest)
  match skipWhite (← scanUnit (← scanColon rest)) with
  | [] => tooShort .endInObject
  | x :: rest =>
    if x = .char '\x7d' then return rest else throw (.here (.malformed .value) (x :: rest))

def scanEnumeration (names : List String) : Scanner := fun xs =>
  match skipWhite xs with
  | [] => tooShort .endInValue
  | x :: rest =>
    if x = .char '"' then scanName names rest
    else if x = .char '\x7b' then scanVariant names rest
    else misplaced .value (x :: rest)

/-- One of `all`, written as its name. A name may also stand as the one member of an object, with
null. -/
def enumeration (name : α → String) (all : List α) : Codec α where
  encode a := text (name a)
  decode
    | .string (.ok s) => byName name all s
    | .string (.error e) => .error (.text e)
    | .object ((k, v) :: ms) =>
      match readStr k with
      | .error e => .error e
      | .ok k =>
        match byName name all k with
        | .error e => .error e
        | .ok a =>
          match v, ms with
          | .null, [] => .ok a
          | .null, _ :: _ => .error (.malformed .value)
          | v, _ => .error (mismatch v .unit)
    | _ => .error (.malformed .value)
  scan := scanEnumeration (all.map name)

/-- A number or its digits. What makes it neither shows only after it. -/
def scanNumberText (room : Nat) : Scanner := fun xs => do
  let (f, rest) ← scanWhole room xs
  match f with
  | .integer k => if 0 ≤ k then return rest else throw (.unsettled .noAlternative rest)
  | .string s =>
    match Text.readUnsigned UInt64.size s with
    | .ok _ => return rest
    | .error e => throw (.unsettled (.digits e) rest)
  | _ => throw (.unsettled .noAlternative rest)

/-- An optional number below 2⁶⁴ that is written as a string of digits. An integer is read too. The
number may stand where nothing deeper than `room - 1` is taken in. -/
def numberText (room : Nat) : Codec (Option UInt64) where
  encode
    | none => .null
    | some n => text (toString n.toNat)
  decode
    | .null => .ok none
    | .string (.ok s) =>
      match Text.readUnsigned UInt64.size s with
      | .ok n => .ok (some (.ofNat n))
      | .error e => .error (.digits e)
    | v =>
      match wholeCause? room v with
      | some e => .error e
      | none =>
        match v with
        | .number n =>
          match n.number? with
          | some (.natural k) => .ok (some (.ofNat k))
          | _ => .error .noAlternative
        | _ => .error .noAlternative
  scan := scanOption (scanNumberText room)

end Codec

end Provision.Json
