/-!
JSON values as they stand in a text: members keep their order and may repeat, and a number keeps its
digits.
-/
namespace Provision
namespace Json

/-- Why a string literal stands for no text: it escapes one half of a surrogate pair, or it holds
bytes that are no characters. -/
inductive StrFault where
  | lone
  | unpaired
  | encoding
  deriving DecidableEq

def StrFault.message : StrFault → String
  | .lone => "lone leading surrogate in hex escape"
  | .unpaired => "unexpected end of hex escape"
  | .encoding => "invalid unicode code point"

/-- What a string literal stands for. -/
abbrev Str := Except StrFault String

/-- A number as written. A fraction of no digits is no fraction. -/
structure Numeral where
  negative : Bool
  whole : Nat
  fraction : List (Fin 10)
  exponent : Option Int
  deriving DecidableEq

/-- The numeral of an integer. -/
def Numeral.ofInt (n : Int) : Numeral := ⟨decide (n < 0), n.natAbs, [], none⟩

def Numeral.ofNat (n : Nat) : Numeral := ⟨false, n, [], none⟩

end Json

inductive Json where
  | null
  | bool (b : Bool)
  | number (n : Json.Numeral)
  | string (s : Json.Str)
  | array (items : List Json)
  | object (members : List (Json.Str × Json))

namespace Json

instance : Inhabited Json := ⟨.null⟩

def text (s : String) : Json := .string (.ok s)

/-- Why a text is no JSON. -/
inductive SyntaxFault where
  | endInList
  | endInObject
  | endInString
  | endInValue
  | colon
  | listSeparator
  | objectSeparator
  | word
  | value
  | escape
  | number
  | control
  | name
  | trailingComma
  | trailing
  deriving DecidableEq

def SyntaxFault.message : SyntaxFault → String
  | .endInList => "EOF while parsing a list"
  | .endInObject => "EOF while parsing an object"
  | .endInString => "EOF while parsing a string"
  | .endInValue => "EOF while parsing a value"
  | .colon => "expected `:`"
  | .listSeparator => "expected `,` or `]`"
  | .objectSeparator => "expected `,` or `\x7d`"
  | .word => "expected ident"
  | .value => "expected value"
  | .escape => "invalid escape"
  | .number => "invalid number"
  | .control => "control character (\\u0000-\\u001F) found while parsing a string"
  | .name => "key must be a string"
  | .trailingComma => "trailing comma"
  | .trailing => "trailing characters"

end Json
end Provision
