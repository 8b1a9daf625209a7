import Provision.Actuator.Error
import Provision.Compute.Call
import Provision.Poll

/-!
Waiting for an operation to end.
-/
namespace Provision

variable {σ : Type}

namespace Service

/-- One look at an operation. -/
def check (s : Service σ) (project zone operation : String) :
    Timed σ (Except ComputeError (Progress Operation)) := do
  match ← s (.getOperation project zone operation) with
  | .error e => return .error e
  | .ok o =>
    Timed.log .debug .waiting "Polled operation"
      [("operation", operation), ("status", o.state.name)]
    return .ok (if o.isDone then .done o else .pending o)

/-- Waits until an operation is done. One that cannot be fetched is not waited for any longer, and
one that ends with faults has failed. -/
def wait (s : Service σ) (c : PollConfig) (project zone operation : String) :
    Timed σ (Except ActuatorError Operation) := do
  Timed.log .debug .waiting "Waiting for operation"
    [("project", project), ("zone", zone), ("operation", operation)]
  match ← poll c (s.check project zone operation) with
  | .error (.aborted e) =>
    return .error
      (.ofCompute ("failed to get operation " ++ operation ++ " in " ++ project ++ "/" ++ zone) e)
  | .error (.timeout elapsed attempts last) =>
    return .error (.operationTimeout operation elapsed attempts (some last))
  | .ok (o, attempts) =>
    if o.faultList.isEmpty then
      Timed.log .debug .waiting "Operation done"
        [("operation", operation), ("attempts", .number attempts)]
      return .ok o
    else return .error (.operationFailed operation o.faultList)

end Service
end Provision
