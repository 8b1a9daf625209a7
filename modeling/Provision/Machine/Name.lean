/-!
Names that the provider and the orchestrator accept.
-/
namespace Provision

/-- The most bytes of a name. -/
def maxNameLength : Nat := 63

inductive NameFault where
  | empty
  | tooLong
  | start
  | character
  | ending
  deriving DecidableEq

def NameFault.message : NameFault → String
  | .empty => "name cannot be empty"
  | .tooLong => "name exceeds 63 characters"
  | .start => "name must start with a lowercase letter"
  | .character => "name may only contain lowercase letters, digits and hyphens"
  | .ending => "name cannot end with a hyphen"

/-- A character inside a name. -/
def isNameChar (c : Char) : Bool := c.isLower || c.isDigit || c = '-'

/-- The first fault of an instance name. -/
def instanceNameFault? (s : String) : Option NameFault :=
  if s = "" then some .empty
  else if maxNameLength < s.utf8ByteSize then some .tooLong
  else if !(s.toList.head?.any Char.isLower) then some .start
  else if !s.toList.all isNameChar then some .character
  else if s.toList.getLast? = some '-' then some .ending
  else none

/-- Letters, digits and hyphens, with no hyphen at either end. -/
def isDnsLabel (s : String) : Bool :=
  s ≠ "" && s.utf8ByteSize ≤ maxNameLength && s.toList.all isNameChar &&
    s.toList.head? ≠ some '-' && s.toList.getLast? ≠ some '-'

example : instanceNameFault? "worker-0" = none := by decide +kernel
example : isDnsLabel "0-a" = true := by decide +kernel

end Provision
