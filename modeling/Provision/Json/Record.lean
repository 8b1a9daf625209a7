import Provision.Json.Codec

/-!
Codecs of records: objects with a member for each field, in any order and among members of other
names, or arrays of the fields' values in order. A field may have a value that stands for its
absence.
-/
namespace Provision.Json

structure Field (α : Type) where
  name : String
  codec : Codec α
  /-- The value when the field is absent; a field without one is required. -/
  absent : Option α
  /-- Whether a value is left out when written. -/
  omits : α → Bool

namespace Field

variable {α : Type}

def required (name : String) (codec : Codec α) : Field α := ⟨name, codec, none, fun _ => false⟩

/-- Always written, and `a` when absent. -/
def withDefault (name : String) (codec : Codec α) (a : α) : Field α :=
  ⟨name, codec, some a, fun _ => false⟩

/-- Left out when it is `a`, and `a` when absent. -/
def omitting [DecidableEq α] (name : String) (codec : Codec α) (a : α) : Field α :=
  ⟨name, codec, some a, fun b => decide (b = a)⟩

/-- A field of an optional value, left out when there is none. -/
def optional (name : String) (codec : Codec α) : Field (Option α) :=
  ⟨name, codec.option, some none, Option.isNone⟩

end Field

/-- One value of each type. -/
abbrev Tuple : List Type → Type
  | [] => Unit
  | α :: ts => α × Tuple ts

/-- A value or none of each type. -/
abbrev Slots : List Type → Type
  | [] => Unit
  | α :: ts => Option α × Slots ts

/-- The fields of a record with values of the given types. -/
inductive Fields : List Type → Type 1 where
  | nil : Fields []
  | cons {α : Type} {ts : List Type} (f : Field α) (fs : Fields ts) : Fields (α :: ts)

namespace Fields

def names : {ts : List Type} → Fields ts → List String
  | _, .nil => []
  | _, .cons f fs => f.name :: fs.names

/-- The members that are written. -/
def encode : {ts : List Type} → Fields ts → Tuple ts → List (Str × Json)
  | _, .nil, _ => []
  | _, .cons f fs, (a, as) =>
    if f.omits a then fs.encode as else (.ok f.name, f.codec.encode a) :: fs.encode as

def noSlots : (ts : List Type) → Slots ts
  | [] => ()
  | _ :: ts => (none, noSlots ts)

/-- Puts the member `v` of the name `k` into its slot, if it has one; a slot is filled only once. -/
def put (k : String) (v : Json) :
    {ts : List Type} → Fields ts → Slots ts → Except Cause (Slots ts)
  | _, .nil, slots => .ok slots
  | _, .cons f fs, (slot, slots) =>
    if f.name = k then
      match slot with
      | some _ => .error (.duplicate k)
      | none => (f.codec.decode v).map fun a => (some a, slots)
    else (put k v fs slots).map fun slots => (slot, slots)

/-- Puts members into their slots. -/
def putAll {ts : List Type} (fs : Fields ts) :
    Slots ts → List (Str × Json) → Except Cause (Slots ts)
  | slots, [] => .ok slots
  | slots, (k, v) :: ms =>
    match readStr k with
    | .error e => .error e
    | .ok k =>
      match put k v fs slots with
      | .error e => .error e
      | .ok slots => putAll fs slots ms

/-- Fills the slots that are left. -/
def complete : {ts : List Type} → Fields ts → Slots ts → Except Cause (Tuple ts)
  | _, .nil, _ => .ok ()
  | _, .cons f fs, (slot, slots) =>
    match slot.or f.absent with
    | some a => (complete fs slots).map fun as => (a, as)
    | none => .error (.missing f.name)

/-- The values of items, one for each field from the `i`-th; `size` is the number of all fields. -/
def ofItems (record : String) (size : Nat) :
    {ts : List Type} → Fields ts → Nat → List Json → Except Cause (Tuple ts)
  | _, .nil, _, [] => .ok ()
  | _, .nil, _, _ :: _ => .error (.malformed .trailing)
  | _, .cons f fs, i, [] =>
    match f.absent with
    | some a => (ofItems record size fs (i + 1) []).map fun as => (a, as)
    | none => .error (.length i record size)
  | _, .cons f fs, i, v :: vs =>
    match f.codec.decode v with
    | .error e => .error e
    | .ok a => (ofItems record size fs (i + 1) vs).map fun as => (a, as)

end Fields

/-- A field, for those who only look at texts. -/
structure FieldScanner where
  name : String
  isRequired : Bool
  scan : Scanner

namespace FieldScanner

/-- A member of an object, after its name, and the names of fields met so far. -/
def scanMember (fs : List FieldScanner) (met : List String) (name : String) (xs : List Symbol) :
    Except Flaw (List String × List Symbol) := do
  match fs.find? fun f => f.name = name with
  | none => return (met, ← scanAny (← scanColon xs))
  | some f =>
    if met.contains name then throw (.unsettled (.duplicate name) xs)
    return (name :: met, ← f.scan (← scanColon xs))

/-- The members of a record, after the brace. -/
def scanRecord (fs : List FieldScanner) : Scanner := fun xs => do
  let (met, rest) ← scanObject (scanMember fs) [] xs
  match fs.find? fun f => f.isRequired && !met.contains f.name with
  | some f => throw (.here (.missing f.name) rest)
  | none => return rest

/-- The values of the fields from the `i`-th, inside a list. -/
def scanItems (record : String) (size : Nat) : List FieldScanner → Nat → Scanner
  | [], _, xs => scanListEnd xs
  | f :: fs, i, xs => do
    match ← nextItem? (i = 0) xs with
    | some ys => scanItems record size fs (i + 1) (← f.scan ys)
    | none =>
      if f.isRequired then throw (.unsettled (.length i record size) xs)
      else scanItems record size fs (i + 1) xs

/-- A record, as an object or as a list. -/
def scanAll (record : String) (fs : List FieldScanner) : Scanner := fun xs =>
  match skipWhite xs with
  | .char '[' :: rest => (scanItems record fs.length fs 0 rest).mapError (·.settle leaveList)
  | rest => scanInside '\x7b' (.record record) (scanRecord fs) rest

end FieldScanner

def Fields.scanners : {ts : List Type} → Fields ts → List FieldScanner
  | _, .nil => []
  | _, .cons f fs => ⟨f.name, f.absent.isNone, f.codec.scan⟩ :: fs.scanners

/-- The codec of a record, which is taken apart into the values of its fields and put together from
them. -/
def Codec.record {ts : List Type} {β : Type} (name : String) (fs : Fields ts)
    (parts : β → Tuple ts) (whole : Tuple ts → β) : Codec β where
  encode b := .object (fs.encode (parts b))
  decode
    | .object ms =>
      match fs.putAll (Fields.noSlots ts) ms with
      | .error e => .error e
      | .ok slots => (fs.complete slots).map whole
    | .array vs => (fs.ofItems name fs.names.length 0 vs).map whole
    | v => .error (mismatch v (.record name))
  scan := FieldScanner.scanAll name fs.scanners

end Provision.Json
