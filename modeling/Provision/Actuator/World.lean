import Provision.Actuator.Error
import Provision.Compute.Call
import Provision.Event
import Provision.Actuator.Waiter
import Provision.Secret

/-!
What actions on machines work with: a compute service, secrets, and a place for the status of
machines.
-/
namespace Provision

/-- The states of the compute service and of the storage, and the events recorded so far. -/
structure World (σ τ : Type) where
  compute : σ
  storage : τ
  events : List Event

structure Collaborators (σ τ : Type) where
  service : Service σ
  secrets : SecretStore τ
  machines : MachineStore τ
  recorder : Recorder
  polling : PollConfig
  /-- The project of machines that name none. -/
  defaultProject : Option String

namespace World

variable {σ τ α : Type}

def onCompute (act : Timed σ α) : Timed (World σ τ) α :=
  .within World.compute (fun s w => { w with compute := s }) act

def onStorage (act : Timed τ α) : Timed (World σ τ) α :=
  .within World.storage (fun s w => { w with storage := s }) act

/-- Records an event. -/
def record (r : Recorder) (e : Event) : Timed (World σ τ) Unit := do
  Timed.update fun w => ((), { w with events := w.events ++ [e] })
  for l in r e do
    Timed.log l.level l.source l.message l.fields

end World

namespace Collaborators

variable {σ τ : Type} (c : Collaborators σ τ)

def call (call : Call) : Timed (World σ τ) (Reply call) := World.onCompute (c.service call)

def secret (ns name : String) : Timed (World σ τ) (Except SecretError Secret) :=
  World.onStorage (c.secrets ns name)

/-- Waits for an operation to end. -/
def wait (project zone operation : String) : Timed (World σ τ) (Except ActuatorError Operation) :=
  World.onCompute (c.service.wait c.polling project zone operation)

end Collaborators
end Provision
