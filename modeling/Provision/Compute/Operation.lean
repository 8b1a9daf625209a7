import Provision.Compute.Instance

/-!
Operations: handles to what the provider is still doing.
-/
namespace Provision

open Json

inductive OperationState where
  | pending
  | running
  | done
  deriving DecidableEq

def OperationState.name : OperationState → String
  | .pending => "PENDING"
  | .running => "RUNNING"
  | .done => "DONE"

structure OperationFault where
  code : String
  location : String
  message : String
  deriving DecidableEq

def OperationFault.text (f : OperationFault) : String := f.code ++ ": " ++ f.message

structure Operation where
  name : String
  kind : String
  state : OperationState
  target : String
  faults : Option (List OperationFault)
  deriving DecidableEq

namespace Operation

def isDone (o : Operation) : Bool := o.state = .done

/-- The faults reported, none when there is no report. -/
def faultList (o : Operation) : List OperationFault := o.faults.getD []

def text (o : Operation) : String := o.name ++ " (" ++ o.kind ++ ", " ++ o.state.name ++ ")"

end Operation

def OperationState.codec : Codec OperationState :=
  .enumeration OperationState.name [.pending, .running, .done]

namespace OperationFault

def fields : Fields [String, String, String] :=
  .cons (.withDefault "code" .string "") <| .cons (.omitting "location" .string "") <|
  .cons (.withDefault "message" .string "") .nil

def codec : Codec OperationFault :=
  .record "OperationErrorDetail" fields (fun f => (f.code, f.location, f.message, ()))
    fun (code, location, message, _) => ⟨code, location, message⟩

end OperationFault

namespace Operation

def fields : Fields [String, String, OperationState, String, Option (List OperationFault)] :=
  .cons (.required "name" .string) <| .cons (.withDefault "operationType" .string "") <|
  .cons (.required "status" OperationState.codec) <| .cons (.omitting "targetLink" .string "") <|
  .cons (.optional "error" (itemsCodec "OperationError" "errors" OperationFault.codec)) .nil

def codec : Codec Operation :=
  .record "Operation" fields (fun o => (o.name, o.kind, o.state, o.target, o.faults, ()))
    fun (name, kind, state, target, faults, _) => ⟨name, kind, state, target, faults⟩

end Operation
end Provision
