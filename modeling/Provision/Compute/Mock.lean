import Provision.Compute.Call
import Provision.Table

/-!
A compute service in memory. An inserted instance is there at once, with fixed addresses; operations
stay under way for a set number of polls and end with set faults. Every call is kept, and calls of a
method can be made to fail.
-/
namespace Provision

def mockInternalAddress : String := "10.0.0.15"

def mockExternalAddress : String := "35.243.147.143"

/-- Project, zone and name. -/
abbrev InstanceKey : Type := String × String × String

structure TrackedOperation where
  operation : Operation
  remaining : Nat
  deriving DecidableEq

/-- An operation after one more poll, which ends with `faults` when it ends. -/
def TrackedOperation.poll (faults : List OperationFault) (t : TrackedOperation) :
    TrackedOperation :=
  if 0 < t.remaining then
    ⟨{ t.operation with state := .running }, t.remaining - 1⟩
  else
    ⟨{ t.operation with
        state := .done
        faults := if faults.isEmpty then t.operation.faults else some faults }, 0⟩

structure Mock where
  instances : Table InstanceKey Instance
  operations : Table String TrackedOperation
  nextId : UInt64
  missingZones : List (String × String)
  pendingPolls : Nat
  operationFaults : List OperationFault
  failures : Table Method ComputeError
  calls : Array Call

namespace Mock

/-- Every zone is there, and no instance. -/
def new : Mock := ⟨∅, ∅, 0, [], 0, [], ∅, #[]⟩

instance : Inhabited Mock := ⟨new⟩

/-- Puts an instance as it is. -/
def seed (m : Mock) (project zone : String) (i : Instance) : Mock :=
  { m with instances := m.instances.insert (project, zone, i.name) i }

/-- Makes all calls of a method fail. -/
def fail (m : Mock) (method : Method) (e : ComputeError) : Mock :=
  { m with failures := m.failures.insert method e }

def clearFailure (m : Mock) (method : Method) : Mock :=
  { m with failures := m.failures.erase method }

def callCount (m : Mock) (method : String) : Nat :=
  m.calls.toList.countP fun c => c.method.name = method

/-- How messages name an instance, and so on. -/
def resource (project zone : String) (parts : List String) : String :=
  "The resource '" ++ String.intercalate "/" (["projects", project, "zones", zone] ++ parts) ++ "'"

def absent (project zone : String) (parts : List String) : ComputeError :=
  .notFound (resource project zone parts ++ " was not found")

def withAddresses (n : NetworkInterface) : NetworkInterface :=
  { n with
    address := mockInternalAddress
    accessConfigs := n.accessConfigs.map fun c => { c with address := mockExternalAddress } }

/-- What becomes of a requested instance. -/
def created (id : UInt64) (zone : String) (i : Instance) : Instance :=
  { i with
    id := some id, status := "RUNNING", zone := zone
    interfaces := i.interfaces.map withAddresses }

/-- Starts an operation on the instance of a name. -/
def start (m : Mock) (kind target : String) : Operation × Mock :=
  let id := m.nextId + 1
  let name := "operation-" ++ kind ++ "-" ++ toString id.toNat
  let operation : Operation := ⟨name, kind, .pending, target, none⟩
  (operation,
    { m with nextId := id, operations := m.operations.insert name ⟨operation, m.pendingPolls⟩ })

/-- The part of a zone's name before the last hyphen. -/
def regionOf (zone : String) : String :=
  String.ofList ((zone.toList.reverse.dropWhile (· != '-')).drop 1).reverse

/-- The reply to a call that is not made to fail. -/
def handle (m : Mock) : (c : Call) → Reply c × Mock
  | .insertInstance project zone i =>
    let key := (project, zone, i.name)
    if (m.instances.find? key).isSome then
      (.error (.conflict (resource project zone ["instances", i.name] ++ " already exists")), m)
    else
      let id := m.nextId + 1
      let instances := m.instances.insert key (created id zone i)
      let (operation, m) := { m with nextId := id, instances }.start "insert" i.name
      (.ok operation, m)
  | .getInstance project zone name =>
    match m.instances.find? (project, zone, name) with
    | some i => (.ok i, m)
    | none => (.error (absent project zone ["instances", name]), m)
  | .deleteInstance project zone name =>
    if (m.instances.find? (project, zone, name)).isSome then
      let (operation, m) :=
        { m with instances := m.instances.erase (project, zone, name) }.start "delete" name
      (.ok operation, m)
    else (.error (absent project zone ["instances", name]), m)
  | .getZone project zone =>
    if (project, zone) ∈ m.missingZones then (.error (absent project zone []), m)
    else (.ok ⟨zone, "UP", regionOf zone⟩, m)
  | .getOperation project zone name =>
    match m.operations.find? name with
    | some t =>
      let t := t.poll m.operationFaults
      (.ok t.operation, { m with operations := m.operations.insert name t })
    | none => (.error (absent project zone ["operations", name]), m)

/-- The reply to a call, which is kept. -/
def reply (m : Mock) (c : Call) : Reply c × Mock :=
  let m := { m with calls := m.calls.push c }
  match m.failures.find? c.method with
  | some e => (.error e, m)
  | none => m.handle c

/-- What is logged of a call that was answered. -/
def note (message project zone name : String) : Timed Mock Unit :=
  Timed.log .debug .mock message [("project", project), ("zone", zone), ("instance", name)]

def service : Service Mock := fun c => do
  let r ← Timed.update fun m => m.reply c
  match c, r with
  | .insertInstance project zone i, .ok _ => note "[MOCK] Inserted instance" project zone i.name
  | .deleteInstance project zone name, .ok _ => note "[MOCK] Deleted instance" project zone name
  | _, _ => pure ()
  return r

end Mock
end Provision
