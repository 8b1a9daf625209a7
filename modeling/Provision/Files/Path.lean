/-!
Paths as texts: names between slashes.
-/
namespace Provision.Path

/-- The pieces between the characters `sep`. -/
def splitChars (sep : Char) : List Char → List (List Char)
  | [] => [[]]
  | c :: cs =>
    if c = sep then [] :: splitChars sep cs
    else
      match splitChars sep cs with
      | [] => [[c]]
      | p :: ps => (c :: p) :: ps

/-- The names of a path. An empty name stands for the directory before it. -/
def names (path : String) : List String := (splitChars '/' path.toList).map String.ofList

def isAbsolute (path : String) : Bool := path.toList.head? = some '/'

/-- A path that is followed from a directory. One that begins at the root stays as it is, and one
that is empty ends in a slash. -/
def join (dir path : String) : String :=
  if isAbsolute path then path
  else if dir = "" ∨ dir.toList.getLast? = some '/' then dir ++ path
  else dir ++ "/" ++ path

/-- A name that leads one step down and no further. -/
def isPlain (name : String) : Bool :=
  name ≠ "" && name ≠ "." && name ≠ ".." && name.toList.all fun c =>
    c ≠ '/' && c ≠ '\\' && c.toNat ≠ 0

/-- A path, from its end, without the slashes and single dots there. -/
def stripEnd : List Char → List Char
  | '/' :: cs => stripEnd cs
  | '.' :: '/' :: cs => stripEnd ('/' :: cs)
  | cs => cs
termination_by cs => cs.length

/-- A name without its extension: all before the last dot, unless that is the first character. -/
def stem (name : List Char) : List Char :=
  if name.contains '.' then
    match ((name.reverse.dropWhile (· != '.')).drop 1).reverse with
    | [] => name
    | s => s
  else name

/-- The path with another extension on its last name. The old extension goes first, and what is left
must still be a name: two dots are not. -/
def withExtension (path extension : String) : String :=
  let back := stripEnd path.toList.reverse
  let name := (back.takeWhile (· != '/')).reverse
  if name = [] ∨ name = ['.'] ∨ name = ['.', '.'] then path
  else
    let dir := (back.dropWhile (· != '/')).reverse
    if stem name = ['.'] ∧ back.length = path.length then String.ofList (dir ++ ['.', '.'])
    else String.ofList (dir ++ stem name) ++ "." ++ extension

example : withExtension "a/manifest.json" "tmp" = "a/manifest.tmp" := by decide +kernel
example : withExtension ".hidden" "tmp" = ".hidden.tmp" := by decide +kernel
example : withExtension "x." "tmp" = "x.tmp" := by decide +kernel
example : withExtension "a/..json" "tmp" = "a/.." := by decide +kernel
example : join (join "secrets" "") "s" = "secrets/s" := by decide +kernel
example : join "secrets" "/etc" = "/etc" := by decide +kernel

end Provision.Path
