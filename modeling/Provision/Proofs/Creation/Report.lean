import Provision.Proofs.Creation.Conclusion

/-!
How the outcome of making an instance shows. Result, events and status tell the same, and the
machine is blamed exactly when it is at fault.
-/
namespace Provision

open Timed

namespace Scope

variable {s : Scope} {boot : Except Halt (Except MachineError String)} {es : List Exchange}
  {result : Except ActuatorError Unit}

end Scope

namespace Collaborators

variable {σ τ : Type} {c : Collaborators σ τ}

end Collaborators
end Provision
