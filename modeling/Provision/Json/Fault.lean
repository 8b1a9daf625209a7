import Provision.Json.Number
import Provision.Text.Quoted
import Provision.Text.Unsigned
import Provision.Decimal.Shortest

/-!
Why a JSON value stands for nothing of a wanted type. The parts of a value are looked at in their
order, and the first cause counts.
-/
namespace Provision.Json

/-- What a value turned out to be. -/
inductive Found where
  | null
  | boolean (b : Bool)
  | integer (n : Int)
  | real (digits : String)
  | string (s : String)
  | sequence
  | map
  deriving DecidableEq

def Found.text : Found → String
  | .null => "null"
  | .boolean b => "boolean `" ++ (if b then "true" else "false") ++ "`"
  | .integer n => "integer `" ++ toString n ++ "`"
  | .real ds => "floating point `" ++ ds ++ "`"
  | .string s => "string " ++ Text.quoted s
  | .sequence => "sequence"
  | .map => "map"

/-- What was wanted. -/
inductive Shape where
  | unit
  | boolean
  | int64
  | uint64
  | string
  | sequence
  | map
  | record (name : String)
  deriving DecidableEq

def Shape.text : Shape → String
  | .unit => "unit"
  | .boolean => "a boolean"
  | .int64 => "i64"
  | .uint64 => "u64"
  | .string => "a string"
  | .sequence => "a sequence"
  | .map => "a map"
  | .record name => "struct " ++ name

inductive Cause where
  | type (found : Found) (wanted : Shape)
  | value (found : Int) (wanted : Shape)
  | length (items : Nat) (record : String) (fields : Nat)
  | missing (field : String)
  | duplicate (field : String)
  | unknownVariant (found : String) (known : List String)
  | malformed (fault : SyntaxFault)
  | tooLarge
  | tooDeep
  | text (fault : StrFault)
  | digits (fault : Text.UnsignedFault)
  | noAlternative
  deriving DecidableEq

def ticked (s : String) : String := "`" ++ s ++ "`"

/-- The choice between names. -/
def choice : List String → String
  | [] => "there are no variants"
  | [a] => "expected " ++ ticked a
  | [a, b] => "expected " ++ ticked a ++ " or " ++ ticked b
  | names => "expected one of " ++ String.intercalate ", " (names.map ticked)

def Cause.message : Cause → String
  | .type found wanted => "invalid type: " ++ found.text ++ ", expected " ++ wanted.text
  | .value found wanted =>
    "invalid value: " ++ (Found.integer found).text ++ ", expected " ++ wanted.text
  | .length items record fields =>
    "invalid length " ++ toString items ++ ", expected struct " ++ record ++ " with " ++
      toString fields ++ (if fields = 1 then " element" else " elements")
  | .missing field => "missing field " ++ ticked field
  | .duplicate field => "duplicate field " ++ ticked field
  | .unknownVariant found known => "unknown variant " ++ ticked found ++ ", " ++ choice known
  | .malformed fault => fault.message
  | .tooLarge => "number out of range"
  | .tooDeep => "recursion limit exceeded"
  | .text fault => fault.message
  | .digits fault => fault.message
  | .noAlternative => "data did not match any variant of untagged enum Repr"

/-- What a value is; a string or number may have no meaning of its own. -/
def found : Json → Except Cause Found
  | .null => .ok .null
  | .bool b => .ok (.boolean b)
  | .number n =>
    match n.number? with
    | none => .error .tooLarge
    | some (.natural k) => .ok (.integer k)
    | some (.negative k) => .ok (.integer k)
    | some (.real x) => .ok (.real (Decimal.ofFloat x))
  | .string (.ok s) => .ok (.string s)
  | .string (.error e) => .error (.text e)
  | .array _ => .ok .sequence
  | .object _ => .ok .map

/-- What is wrong with a value of the wrong type. -/
def mismatch (v : Json) (wanted : Shape) : Cause :=
  match found v with
  | .error c => c
  | .ok f => .type f wanted

/-- The text of a string. -/
def readStr : Str → Except Cause String
  | .ok s => .ok s
  | .error e => .error (.text e)

mutual

/-- What is first wrong with a value that is taken whole: a string or number without a meaning, or
parts more than `room - 1` deep. -/
def wholeCause? (room : Nat) : Json → Option Cause
  | .array vs => if room ≤ 1 then some .tooDeep else itemsCause? (room - 1) vs
  | .object ms => if room ≤ 1 then some .tooDeep else membersCause? (room - 1) ms
  | .number n => if n.number?.isNone then some .tooLarge else none
  | .string (.error e) => some (.text e)
  | _ => none

def itemsCause? (room : Nat) : List Json → Option Cause
  | [] => none
  | v :: vs => (wholeCause? room v).or (itemsCause? room vs)

def membersCause? (room : Nat) : List (Str × Json) → Option Cause
  | [] => none
  | (.error e, _) :: _ => some (.text e)
  | (.ok _, v) :: ms => (wholeCause? room v).or (membersCause? room ms)

end

example : (Cause.type (.integer 1) .string).message =
  "invalid type: integer `1`, expected a string" := by
  decide +kernel
example : (Cause.unknownVariant "x" ["A", "B"]).message =
    "unknown variant `x`, expected `A` or `B`" := by decide +kernel

end Provision.Json
