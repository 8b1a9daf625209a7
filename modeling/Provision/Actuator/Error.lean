import Provision.Compute.Operation
import Provision.Machine.Store

/-!
Why an action on a machine fails.
-/
namespace Provision

/-- A failure that the status of the machine tells of. -/
structure MachineError where
  reason : ErrorReason
  message : String
  deriving DecidableEq

namespace MachineError

def invalidConfiguration (message : String) : MachineError := ⟨.invalidConfiguration, message⟩

def create (message : String) : MachineError := ⟨.createError, message⟩

end MachineError

inductive ActuatorError where
  | machine (e : MachineError)
  | notFound (context : String) (source : ComputeError)
  | provider (context : String) (source : ComputeError)
  | operationTimeout (operation : String) (elapsed : Duration) (attempts : Nat)
      (last : Option Operation)
  | operationFailed (operation : String) (faults : List OperationFault)
  | unexpectedInstance (name reason : String)
  | store (name : String) (source : StoreError)
  deriving DecidableEq

namespace ActuatorError

/-- A failed call, with what is not found kept apart. -/
def ofCompute (context : String) (source : ComputeError) : ActuatorError :=
  if source.isNotFound then .notFound context source else .provider context source

def reason? : ActuatorError → Option ErrorReason
  | .machine e => some e.reason
  | _ => none

def isNotFound : ActuatorError → Bool
  | .notFound .. => true
  | _ => false

/-- The same action may succeed another time. -/
def isRetryable : ActuatorError → Bool
  | .provider .. | .operationTimeout .. | .store .. => true
  | _ => false

def message (w : Wording) : ActuatorError → String
  | .machine e => e.reason.name ++ ": " ++ e.message
  | .notFound context source | .provider context source => context ++ ": " ++ source.message w
  | .operationTimeout operation elapsed attempts last =>
    "operation " ++ operation ++ " did not complete within " ++ elapsed.text ++ " after " ++
      toString attempts ++ " polls (last status: " ++ (last.elim "unknown" Operation.text) ++ ")"
  | .operationFailed operation faults =>
    "operation " ++ operation ++ " failed: the following errors occurred: [" ++
      String.intercalate ", " (faults.map OperationFault.text) ++ "]"
  | .unexpectedInstance name reason => "unexpected state of instance " ++ name ++ ": " ++ reason
  | .store name source => "failed to persist machine " ++ name ++ ": " ++ source.message w

/-- The reason as a log line shows it. -/
def reasonText (e : ActuatorError) : String :=
  match e.reason? with
  | some r => "Some(" ++ r.name ++ ")"
  | none => "None"

end ActuatorError
end Provision
