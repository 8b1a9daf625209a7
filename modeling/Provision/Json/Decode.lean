import Provision.Json.Reader
import Provision.Json.Printer
import Provision.Json.Record

/-!
From text to values and back. What a text fails by is said in two ways: in brief, or by what shows
first in it, with the line and column.
-/
namespace Provision.Json

/-- Why a text stands for no value. -/
structure DecodeError where
  /-- What is wrong with the value; nothing when the text is no JSON. -/
  cause : Option Cause
  /-- What shows first in the text, and where. -/
  first : Option (Cause × Position)
  deriving DecidableEq

namespace DecodeError

def brief (e : DecodeError) : String :=
  match e.cause with
  | none => "invalid JSON"
  | some cause => cause.message

def located (e : DecodeError) : String :=
  match e.first with
  | none => e.brief
  | some (cause, p) =>
    cause.message ++ " at line " ++ toString p.line ++ " column " ++ toString p.column

end DecodeError

namespace Codec

variable {α : Type} (c : Codec α)

/-- The error of a text. -/
def decodeError (cause : Option Cause) (xs : List Symbol) : DecodeError :=
  ⟨cause, (firstFlaw? c.scan xs).map fun f => (f.cause, f.position xs)⟩

def decodeSymbols (xs : List Symbol) : Except DecodeError α :=
  match readSymbols xs with
  | none => .error (c.decodeError none xs)
  | some v => (c.decode v).mapError fun cause => c.decodeError (some cause) xs

def decodeText (s : String) : Except DecodeError α := c.decodeSymbols (Symbol.ofText s)

/-- Bytes that are no text are read too, where nothing depends on the strings that they spoil. -/
def decodeBytes (bs : Bytes) : Except DecodeError α :=
  match String.fromUTF8? ⟨bs.toArray⟩ with
  | some s => c.decodeText s
  | none => c.decodeSymbols (Symbol.ofBytes bs)

/-- The text of a value on one line. -/
def encodeText (a : α) : String := (c.encode a).compact

/-- The text of a value over several lines. -/
def encodeLines (a : α) : String := (c.encode a).indented

end Codec
end Provision.Json
