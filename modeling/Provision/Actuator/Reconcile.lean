import Provision.Actuator.Scope
import Provision.Actuator.World
import Provision.Machine.Validation

/-!
Bringing an instance into line with its machine. What is read from the provider goes into the status
only after the instance was read.
-/
namespace Provision

/-- A failed call about the instance of a machine, which tried to `verb` it. -/
def Scope.callFailed (s : Scope) (verb : String) (e : ComputeError) : ActuatorError :=
  .ofCompute ("failed to " ++ verb ++ " instance " ++ s.name ++ " in " ++ s.place) e

/-- Why an instance was refused; a request that makes no sense is the machine's own failure. -/
def Scope.insertFailed (s : Scope) (e : ComputeError) : ActuatorError :=
  if e.kind = .invalidArgument then
    .machine (.create ("instance creation failed: " ++ e.message .brief))
  else s.callFailed "create" e

def Instance.withoutInterface (i : Instance) : ActuatorError :=
  .unexpectedInstance i.name "could not find network interfaces for instance"

namespace MachineError

def secretFailed (ns name : String) (e : SecretError) : MachineError :=
  create ("error getting user data secret " ++ Text.quoted name ++ " in namespace " ++
    Text.quoted ns ++
    ": " ++ e.message)

def noBootData (ns name : String) : MachineError :=
  create ("secret " ++ ns ++ "/" ++ name ++ " does not have " ++ Text.quoted bootDataKey ++
    " field set; cannot create machine")

def invalidSpec (e : ValidationError) : MachineError :=
  invalidConfiguration ("failed validating machine provider spec: " ++ e.message)

end MachineError

namespace Collaborators

variable {σ τ : Type} (c : Collaborators σ τ)

/-- Reads the instance into the status. -/
def refresh (s : Scope) : Timed (World σ τ) (Except ActuatorError Unit × Scope) := do
  match ← c.call (.getInstance s.project s.zone s.name) with
  | .error e => return (.error (s.callFailed "get" e), s)
  | .ok i =>
    match i.observation? with
    | none => return (.error i.withoutInterface, s)
    | some o =>
      Timed.log .debug .reconciliation "Observed instance"
        [("machine", s.name), ("state", o.instanceState), ("addresses", .number o.addresses.length)]
      return (.ok (), s.observe o)

/-- Tells of a failure in the status and in an event. -/
def surface (s : Scope) (e : MachineError) : Timed (World σ τ) Scope := do
  Timed.log .error .reconciliation "Machine create failed"
    [("machine", s.name), ("reason", e.reason.name), ("error", e.message)]
  World.record c.recorder (.about s.machine .warning Event.failedCreateReason e.message)
  return s.recordError e

/-- The boot data in base 64, none when the machine names no secret. -/
def userData (s : Scope) : Timed (World σ τ) (Except MachineError String) := do
  match s.machine.spec.userDataSecret with
  | none => return .ok ""
  | some name =>
    match ← c.secret s.machine.ns name with
    | .error e => return .error (.secretFailed s.machine.ns name e)
    | .ok secret =>
      match secret.find? bootDataKey with
      | none => return .error (.noBootData s.machine.ns name)
      | some bytes => return .ok (Base64.encode bytes)

/-- Asks for the instance and waits until it is there. -/
def insertAndWait (s : Scope) : Timed (World σ τ) (Except ActuatorError Unit) := do
  match ← c.userData s with
  | .error e => return .error (.machine e)
  | .ok data =>
    Timed.log .info .reconciliation "Creating instance"
      [("machine", s.name), ("project", s.project), ("zone", s.zone)]
    match ← c.call (.insertInstance s.project s.zone (s.machine.request s.project data)) with
    | .error e => return .error (s.insertFailed e)
    | .ok operation =>
      match ← c.wait s.project s.zone operation.name with
      | .error e => return .error e
      | .ok _ =>
        Timed.log .info .reconciliation "Instance created"
          [("machine", s.name), ("operation", operation.name)]
        return .ok ()

/-- Makes the instance of a valid machine. -/
def attempt (s : Scope) : Timed (World σ τ) (Except ActuatorError Unit) :=
  match s.machine.validationError? with
  | some e => return .error (.machine (.invalidSpec e))
  | none => c.insertAndWait s

/-- Makes the instance. The status is refreshed whatever comes of that, so that an instance which is
there in part shows. -/
def create (s : Scope) : Timed (World σ τ) (Except ActuatorError Unit × Scope) := do
  let result ← s.holding (c.attempt s)
  let s ← match result with
    | .error (.machine e) => c.surface s e
    | _ => pure s
  let (refreshed, s) ← s.holding (c.refresh s)
  if let .error e := refreshed then
    Timed.log .debug .reconciliation "Failed to refresh machine status after create"
      [("machine", s.name), ("error", e.message .located)]
  match result with
  | .error e => return (.error e, s)
  | .ok () =>
    World.record c.recorder
      (.about s.machine .normal Event.createdReason ("Created Machine " ++ s.name))
    return (.ok (), s.clearError)

/-- Whether the instance is there. A zone that is missing is a failure, not an absent instance. -/
def instanceExists (s : Scope) : Timed (World σ τ) (Except ActuatorError Bool) := do
  if let some e := s.machine.validationError? then return .error (.machine (.invalidSpec e))
  if let .error e ← c.call (.getZone s.project s.zone) then
    return .error (.ofCompute ("unable to verify project/zone exists: " ++ s.place) e)
  let fields : List (String × Log.Value) :=
    [("machine", s.name), ("project", s.project), ("zone", s.zone)]
  match ← c.call (.getInstance s.project s.zone s.name) with
  | .ok _ =>
    Timed.log .debug .reconciliation "Instance exists" fields
    return .ok true
  | .error e =>
    if e.isNotFound then
      Timed.log .debug .reconciliation "Instance does not exist" fields
      return .ok false
    else return .error (s.callFailed "get" e)

/-- Reads the instance into the status, and takes back what failed before. -/
def update (s : Scope) : Timed (World σ τ) (Except ActuatorError Unit × Scope) := do
  let (refreshed, s) ← c.refresh s
  match refreshed with
  | .error e => return (.error e, s)
  | .ok () => return (.ok (), s.clearError)

/-- Removes the instance. One that is not there is removed already. -/
def delete (s : Scope) : Timed (World σ τ) (Except ActuatorError Unit) := do
  match ← c.instanceExists s with
  | .error e => return .error e
  | .ok false =>
    Timed.log .info .reconciliation "Instance already deleted" [("machine", s.name)]
    return .ok ()
  | .ok true =>
    Timed.log .info .reconciliation "Deleting instance"
      [("machine", s.name), ("project", s.project), ("zone", s.zone)]
    match ← c.call (.deleteInstance s.project s.zone s.name) with
    | .error e =>
      if e.isNotFound then
        Timed.log .info .reconciliation "Instance disappeared before delete" [("machine", s.name)]
        return .ok ()
      else return .error (s.callFailed "delete" e)
    | .ok operation =>
      match ← c.wait s.project s.zone operation.name with
      | .error e => return .error e
      | .ok _ =>
        Timed.log .info .reconciliation "Instance deleted"
          [("machine", s.name), ("operation", operation.name)]
        return .ok ()

end Collaborators
end Provision
