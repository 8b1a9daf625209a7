import Provision.Proofs.Persistence

/-!
The status over whole courses of actions. Whatever is replied, and wherever an action is cut short,
the status shows an instance as a whole or not at all, and tells of a failure with both its reason
and its message.
-/
namespace Provision

open Timed

namespace MachineStatus

/-- What may be seen of the instance that has the provider's identity `id`: nothing, or its internal
address and then external ones, its name and its state. -/
inductive Shows (id : String) : List NodeAddress × Option String × ProviderStatus → Prop
  | nothing : Shows id ([], none, ⟨none, none⟩)
  | seen (address : String) (others : List String) (name state : String) :
      Shows id (⟨.internal, address⟩ :: others.map (⟨.external, ·⟩), some id,
        ⟨some name, some state⟩)

/-- No part of the status is there without the others that belong to it. -/
structure Coherent (st : MachineStatus) (id : String) : Prop where
  shows : Shows id st.observed
  tells : st.errorReason.isSome = st.errorMessage.isSome

end MachineStatus

namespace Scope

variable {s : Scope} {id : String}

/-- From one scope of a machine to another of it, with a status that is coherent if the first
was. -/
def Follows (s s' : Scope) : Prop :=
  ∃ st, s' = s.withStatus st ∧ (s.status.Coherent s.providerId → st.Coherent s.providerId)

theorem Follows.refl (s : Scope) : s.Follows s := ⟨s.status, rfl, id⟩

end Scope

/-- The mock with an instance of the small machine. -/
def Mock.withInterface : Mock :=
  Mock.new.seed "lab" "us-east1-c"
    { (default : Instance) with
      name := "worker-0", status := "RUNNING", interfaces := [⟨"", "", "10.0.0.15", [.ephemeral]⟩] }

namespace Collaborators

variable {σ τ : Type} {c : Collaborators σ τ} {s : Scope} {a : Action} {m : Machine}
  {t : Timeline (World σ τ)}

end Collaborators
end Provision
