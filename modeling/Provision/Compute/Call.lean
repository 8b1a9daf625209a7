import Provision.Compute.Operation
import Provision.Compute.Error
import Provision.Timeline

/-!
The calls of the compute service, and services as what answers them.
-/
namespace Provision

inductive Call where
  | insertInstance (project zone : String) (i : Instance)
  | getInstance (project zone name : String)
  | deleteInstance (project zone name : String)
  | getZone (project zone : String)
  | getOperation (project zone operation : String)
  deriving DecidableEq

inductive Method where
  | insertInstance
  | getInstance
  | deleteInstance
  | getZone
  | getOperation
  deriving DecidableEq

namespace Method

def name : Method → String
  | .insertInstance => "instances.insert"
  | .getInstance => "instances.get"
  | .deleteInstance => "instances.delete"
  | .getZone => "zones.get"
  | .getOperation => "zoneOperations.get"

def all : List Method := [.insertInstance, .getInstance, .deleteInstance, .getZone, .getOperation]

def ofName? (s : String) : Option Method := all.find? fun m => m.name = s

end Method

namespace Call

def method : Call → Method
  | .insertInstance .. => .insertInstance
  | .getInstance .. => .getInstance
  | .deleteInstance .. => .deleteInstance
  | .getZone .. => .getZone
  | .getOperation .. => .getOperation

def project : Call → String
  | .insertInstance p .. | .getInstance p .. | .deleteInstance p .. | .getZone p ..
  | .getOperation p .. => p

def zone : Call → String
  | .insertInstance _ z _ | .getInstance _ z _ | .deleteInstance _ z _ | .getZone _ z
  | .getOperation _ z _ => z

/-- What a call answers when it succeeds. -/
abbrev Answer : Call → Type
  | .insertInstance .. => Operation
  | .getInstance .. => Instance
  | .deleteInstance .. => Operation
  | .getZone .. => Zone
  | .getOperation .. => Operation

/-- The codec of the answers. -/
def codec : (c : Call) → Json.Codec c.Answer
  | .insertInstance .. => Operation.codec
  | .getInstance .. => Instance.codec
  | .deleteInstance .. => Operation.codec
  | .getZone .. => Zone.codec
  | .getOperation .. => Operation.codec

end Call

abbrev Reply (c : Call) : Type := Except ComputeError c.Answer

/-- What answers calls, with a state `σ`. -/
abbrev Service (σ : Type) : Type := (c : Call) → Timed σ (Reply c)

namespace Service

variable {σ : Type}

/-- The service that also keeps the calls, in order. -/
def recorded (s : Service σ) : Service (List Call × σ) := fun c => do
  let (calls, w) ← Timed.world
  Timed.setWorld (calls ++ [c], w)
  Timed.within (·.2) (fun w p => (p.1, w)) (s c)

end Service
end Provision
