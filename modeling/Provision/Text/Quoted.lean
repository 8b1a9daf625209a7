import Provision.Text.Hidden

/-!
Quoted text: a string between double quotes, in which a quote, a backslash and every hidden
character is escaped. An apostrophe stands for itself.
-/
namespace Provision.Text

/-- The written form of one character between the quotes. -/
def quoteChar (c : Char) : List Char :=
  if c = '"' then ['\\', '"']
  else if c = '\\' then ['\\', '\\']
  else if c = '\n' then ['\\', 'n']
  else if c = '\r' then ['\\', 'r']
  else if c = '\t' then ['\\', 't']
  else if c.toNat = 0 then ['\\', '0']
  else if isHidden c then ['\\', 'u', '\x7b'] ++ Nat.toDigits 16 c.toNat ++ ['\x7d']
  else [c]

/-- The string in double quotes. -/
def quoted (s : String) : String :=
  String.ofList ('"' :: s.toList.flatMap quoteChar ++ ['"'])

/-- An optional string as a value: its quoted text in brackets, or the word for none. -/
def quotedOption : Option String → String
  | none => "None"
  | some s => "Some(" ++ quoted s ++ ")"

example : quoted "a\"b\\c'\n\x00é" = "\"a\\\"b\\\\c'\\n\\0é\"" := by decide +kernel
example : quoted "x\u200by\u0301" = "\"x\\u\x7b200b\x7dy\\u\x7b301\x7d\"" := by decide +kernel

end Provision.Text
