import Provision.Machine.Store
import Provision.Secret

/-!
Where secrets and machines are: in files, or machines in memory.
-/
namespace Provision

structure Storage where
  files : Tree
  machines : MachineTable

namespace Storage

variable {α : Type}

def onFiles (act : Timed Tree α) : Timed Storage α :=
  .within Storage.files (fun t s => { s with files := t }) act

def onMachines (act : Timed MachineTable α) : Timed Storage α :=
  .within Storage.machines (fun t s => { s with machines := t }) act

def secretsIn (root : String) : SecretStore Storage := fun ns name =>
  onFiles (SecretStore.directory root ns name)

def manifest (path : String) : MachineStore Storage := fun m => onFiles (MachineStore.file path m)

def memory : MachineStore Storage := fun m => onMachines (MachineStore.memory m)

end Storage
end Provision
