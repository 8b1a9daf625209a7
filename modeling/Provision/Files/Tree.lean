import Provision.Base64
import Provision.Files.Path

/-!
Files, directories and symbolic links, and what opening, writing and renaming them does.
-/
namespace Provision

inductive FileFault where
  | absent
  | notDirectory
  | isDirectory
  | nameTooLong
  | tooManyLinks
  | zeroByte
  deriving DecidableEq

def FileFault.message : FileFault → String
  | .absent => "No such file or directory (os error 2)"
  | .notDirectory => "Not a directory (os error 20)"
  | .isDirectory => "Is a directory (os error 21)"
  | .nameTooLong => "File name too long (os error 36)"
  | .tooManyLinks => "Too many levels of symbolic links (os error 40)"
  | .zeroByte => "file name contained an unexpected NUL byte"

inductive Node where
  | file (content : Bytes)
  | directory
  | link (target : String)
  deriving DecidableEq

/-- Where something is: the names on the way to it from the root. -/
abbrev Location : Type := List String

structure Tree where
  entries : List (Location × Node)
  /-- The working directory, where paths begin that do not begin at the root. -/
  home : Location
  deriving DecidableEq

/-- Where a path leads: to something, or to a place in a directory where nothing is. -/
inductive Target where
  | node (place : Location) (node : Node)
  | vacant (place : Location)
  deriving DecidableEq

/-- What a path is followed for: what its last name stands for, a link itself included; what that
leads to; or a file that is made where there is none. -/
inductive Purpose where
  | name
  | content
  | creation
  deriving DecidableEq

namespace Tree

def empty : Tree := ⟨[], []⟩

instance : Inhabited Tree := ⟨empty⟩

def find? (t : Tree) (l : Location) : Option Node := t.entries.lookup l

def erase (t : Tree) (l : Location) : Tree :=
  { t with entries := t.entries.filter fun e => e.1 ≠ l }

def put (t : Tree) (l : Location) (n : Node) : Tree :=
  { t with entries := (t.erase l).entries ++ [(l, n)] }

/-- Where a path begins that is met in the directory `here`. -/
def origin (here : Location) (path : String) : Location := if Path.isAbsolute path then [] else here

/-- The most bytes of a name, and of a path. -/
def maxName : Nat := 255
def maxPath : Nat := 4095

/-- Follows names from a directory, through links on the way and mostly at the end; at most `links`
of them are followed. No file is made of a name with a slash after it. -/
def walk (t : Tree) (purpose : Purpose) :
    (links : Nat) → Location → List String → Except FileFault Target
  | _, here, [] => .ok (.node here .directory)
  | links, here, name :: rest =>
    if name = "" ∨ name = "." then walk t purpose links here rest
    else if name = ".." then walk t purpose links here.dropLast rest
    else if purpose = .creation ∧ rest ≠ [] ∧ rest.all (· = "") then .error .isDirectory
    else if maxName < name.utf8ByteSize then .error .nameTooLong
    else
      match t.find? (here ++ [name]) with
      | none => if rest = [] then .ok (.vacant (here ++ [name])) else .error .absent
      | some .directory => walk t purpose links (here ++ [name]) rest
      | some (.file content) =>
        if rest = [] then .ok (.node (here ++ [name]) (.file content)) else .error .notDirectory
      | some (.link target) =>
        if rest = [] ∧ purpose = .name then .ok (.node (here ++ [name]) (.link target))
        else
          match links with
          | 0 => .error .tooManyLinks
          | links + 1 => walk t purpose links (origin here target) (Path.names target ++ rest)
termination_by links _ names => (links, names.length)

/-- The most links that are followed. -/
def maxLinks : Nat := 40

def resolve (t : Tree) (purpose : Purpose) (path : String) : Except FileFault Target :=
  if path.toList.any fun c => c.toNat = 0 then .error .zeroByte
  else if path = "" then .error .absent
  else if maxPath < path.utf8ByteSize then .error .nameTooLong
  else t.walk purpose maxLinks (origin t.home path) (Path.names path)

/-- What a path leads to, through all links. -/
def node (t : Tree) (path : String) : Except FileFault Node :=
  match t.resolve .content path with
  | .ok (.node _ n) => .ok n
  | .ok (.vacant _) => .error .absent
  | .error e => .error e

/-- The content of a file. -/
def read (t : Tree) (path : String) : Except FileFault Bytes :=
  match t.node path with
  | .ok (.file content) => .ok content
  | .ok .directory => .error .isDirectory
  | .ok (.link _) => .error .absent
  | .error e => .error e

/-- The names in the directory at a location. -/
def namesIn (t : Tree) (l : Location) : List String :=
  t.entries.filterMap fun e => if e.1 ≠ [] ∧ e.1.dropLast = l then e.1.getLast? else none

/-- The names in a directory. -/
def list (t : Tree) (path : String) : Except FileFault (List String) :=
  match t.resolve .content path with
  | .ok (.node l .directory) => .ok (t.namesIn l)
  | .ok (.node _ _) => .error .notDirectory
  | .ok (.vacant _) => .error .absent
  | .error e => .error e

/-- Makes `content` all that a file holds, which need not exist before. -/
def write (t : Tree) (path : String) (content : Bytes) : Except FileFault Tree :=
  match t.resolve .creation path with
  | .ok (.node l (.file _)) => .ok (t.put l (.file content))
  | .ok (.vacant l) => .ok (t.put l (.file content))
  | .ok (.node _ _) => .error .isDirectory
  | .error e => .error e

/-- Moves a file or link to another path, in place of what file or link is there. -/
def rename (t : Tree) (path newPath : String) : Except FileFault Tree :=
  match t.resolve .name path with
  | .error e => .error e
  | .ok (.vacant _) => .error .absent
  | .ok (.node source n) =>
    match t.resolve .name newPath with
    | .error e => .error e
    | .ok (.vacant l) => .ok ((t.erase source).put l n)
    | .ok (.node _ .directory) => .error .isDirectory
    | .ok (.node l _) => if l = source then .ok t else .ok ((t.erase source).put l n)

/-- The directories on the way to a location, but for the root. -/
def parents : Location → List Location
  | [] | [_] => []
  | name :: rest => [name] :: (parents rest).map (name :: ·)

/-- Puts a node at a location, with the directories on the way. -/
def place (t : Tree) (l : Location) (n : Node) : Tree :=
  ((parents l).foldl (fun t p => if (t.find? p).isNone then t.put p .directory else t) t).put l n

/-- Nothing but a working directory. -/
def atHome (home : Location) : Tree :=
  if home = [] then empty else place ⟨[], home⟩ home .directory

end Tree
end Provision
