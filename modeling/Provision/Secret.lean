import Provision.Dict
import Provision.Table
import Provision.Files.Tree
import Provision.Text.Quoted
import Provision.Timeline

/-!
Secrets, held in memory or as files in a directory for each secret.
-/
namespace Provision

/-- The entry with the boot data. -/
def bootDataKey : String := "userData"

/-- The entries of a secret. -/
abbrev Secret : Type := Dict Bytes

inductive SecretFault where
  | notFound
  | invalidReference
  | io (fault : FileFault)
  deriving DecidableEq

structure SecretError where
  fault : SecretFault
  ns : String
  name : String
  deriving DecidableEq

namespace SecretError

def message (e : SecretError) : String :=
  match e.fault with
  | .notFound => "secret " ++ e.ns ++ "/" ++ e.name ++ " not found"
  | .invalidReference =>
    "invalid secret reference " ++ Text.quoted e.ns ++ "/" ++ Text.quoted e.name
  | .io fault => "failed to read secret " ++ e.ns ++ "/" ++ e.name ++ ": " ++ fault.message

end SecretError

/-- Finds secrets by namespace and name. -/
abbrev SecretStore (τ : Type) : Type := (ns name : String) → Timed τ (Except SecretError Secret)

/-- Secrets by namespace and name. -/
abbrev SecretTable : Type := Table (String × String) Secret

namespace SecretTable

/-- Adds an entry to a secret, which need not exist before. -/
def addEntry (t : SecretTable) (ns name key : String) (value : Bytes) : SecretTable :=
  t.insert (ns, name) (((t.find? (ns, name)).getD ∅).insert key value)

def get (t : SecretTable) (ns name : String) : Except SecretError Secret :=
  match t.find? (ns, name) with
  | some s => .ok s
  | none => .error ⟨.notFound, ns, name⟩

end SecretTable

namespace SecretStore

def memory {τ : Type} (t : SecretTable) : SecretStore τ := fun ns name => return t.get ns name

/-- Namespaces may be empty; all else must lead one step down. -/
def isReference (ns name : String) : Bool := (ns = "" || Path.isPlain ns) && Path.isPlain name

/-- The directory of a secret. -/
def path (root ns name : String) : String := Path.join (Path.join root ns) name

def isHiddenName (name : String) : Bool := name.toList.head? = some '.'

/-- Adds the files of these names to the entries. Hidden names and what is no file are passed
over. -/
def readEntries (t : Tree) (dir : String) : Secret → List String → Except FileFault Secret
  | s, [] => .ok s
  | s, name :: names =>
    if isHiddenName name then readEntries t dir s names
    else
      match t.node (Path.join dir name) with
      | .error e => .error e
      | .ok (.file content) => readEntries t dir (s.insert name content) names
      | .ok _ => readEntries t dir s names

/-- The secret in a directory. -/
def readSecret (t : Tree) (dir ns name : String) : Except SecretError Secret :=
  match t.list dir with
  | .error .absent => .error ⟨.notFound, ns, name⟩
  | .error e => .error ⟨.io e, ns, name⟩
  | .ok names =>
    match readEntries t dir ∅ names with
    | .ok s => .ok s
    | .error e => .error ⟨.io e, ns, name⟩

/-- Secrets below a directory: a file for each entry, in a directory for each secret, in one for
each namespace. -/
def directory (root : String) : SecretStore Tree := fun ns name => do
  if !isReference ns name then return .error ⟨.invalidReference, ns, name⟩
  let dir := path root ns name
  Timed.log .debug .secrets "Reading secret" [("path", dir)]
  return readSecret (← Timed.world) dir ns name

end SecretStore
end Provision
