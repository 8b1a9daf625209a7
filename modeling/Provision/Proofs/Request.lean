import Mathlib.Data.List.Forall2
import Provision.Compute.Client
import Provision.Compute.Request
import Provision.Proofs.Formats
import Provision.Proofs.Json.Path
import Provision.Proofs.Validation
import Provision.Proofs.World

/-!
The instance that is asked for. For a valid machine the request says all that the machine wants,
carries the boot data where the instance looks for them, and leaves to the provider what is the
provider's to say.
-/
namespace Provision

open Text (isBlank)

open Json

section Outputs

namespace Instance

variable {i : Instance}

end Instance

end Outputs

namespace Machine

variable {m : Machine} {project userData : String}

/-- A machine with a second disk, metadata of its own and boot data in a secret. -/
def furnished : Machine :=
  { small with
    spec :=
      { small.spec with
        disks := small.spec.disks ++ [⟨false, false, 100, "pd-standard", "", ∅⟩]
        metadata := [⟨"role", some "worker"⟩, ⟨"note", none⟩]
        userDataSecret := some "boot" } }

theorem validationError?_furnished : furnished.validationError? = none := by decide +kernel

end Machine

end Provision
