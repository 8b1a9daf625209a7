import Provision.Compute.Error
import Provision.Files.Tree
import Provision.Machine.Codec
import Provision.Table
import Provision.Timeline

/-!
Where the status of machines is written: into memory, or into the file with a machine's manifest.
-/
namespace Provision

inductive StoreError where
  | io (fault : FileFault)
  | serialization (e : Json.DecodeError)
  | conflict (text : String)
  deriving DecidableEq

def StoreError.message (w : Wording) : StoreError → String
  | .io fault => "io error: " ++ fault.message
  | .serialization e => "serialization error: " ++ e.text w
  | .conflict text => "conflict: " ++ text

/-- Takes the status of a machine. -/
abbrev MachineStore (τ : Type) : Type := Machine → Timed τ (Except StoreError Unit)

/-- Machines by namespace and name. -/
structure MachineTable where
  machines : Table (String × String) Machine
  /-- How often one was written. -/
  writes : Nat

namespace MachineTable

def empty : MachineTable := ⟨∅, 0⟩

instance : Inhabited MachineTable := ⟨empty⟩

def find? (t : MachineTable) (ns name : String) : Option Machine := t.machines.find? (ns, name)

def put (t : MachineTable) (m : Machine) : MachineTable :=
  ⟨t.machines.insert (m.ns, m.name) m, t.writes + 1⟩

end MachineTable

namespace Manifest

/-- The machine in a file. -/
def load (path : String) (t : Tree) : Except StoreError Machine :=
  match t.read path with
  | .error e => .error (.io e)
  | .ok content =>
    match Machine.codec.decodeBytes content with
    | .ok m => .ok m
    | .error e => .error (.serialization e)

/-- The text of a manifest. -/
def content (m : Machine) : Bytes := (Machine.codec.encodeLines m).toUTF8.toList

def mismatch (path : String) (stored given : Machine) : StoreError :=
  .conflict (path ++ " holds machine " ++ stored.ns ++ "/" ++ stored.name ++ ", not " ++ given.ns ++
    "/" ++ given.name)

/-- Writes a machine beside the manifest, and then moves it there. -/
def replace (path : String) (m : Machine) (t : Tree) : Except StoreError Unit × Tree :=
  let temporary := Path.withExtension path "tmp"
  match t.write temporary (content m) with
  | .error e => (.error (.io e), t)
  | .ok t =>
    match t.rename temporary path with
    | .error e => (.error (.io e), t)
    | .ok t => (.ok (), t)

/-- Gives the machine in a file another status. It must be the machine that the status is of. -/
def updateStatus (path : String) (m : Machine) (t : Tree) : Except StoreError Unit × Tree :=
  match load path t with
  | .error e => (.error e, t)
  | .ok stored =>
    if stored.metadata ≠ m.metadata then (.error (mismatch path stored m), t)
    else replace path { stored with status := m.status } t

end Manifest

namespace MachineStore

def memory : MachineStore MachineTable := fun m => Timed.update fun t => (.ok (), t.put m)

def file (path : String) : MachineStore Tree := fun m => do
  let r ← Timed.update (Manifest.updateStatus path m)
  if let .ok _ := r then
    Timed.log .debug .storing "Persisted machine status" [("path", path), ("machine", m.name)]
  return r

end MachineStore
end Provision
