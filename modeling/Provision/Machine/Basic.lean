import Provision.Dict

/-!
Machines: what one is called, what instance is wanted for it, and what has been observed of that
instance.
-/
namespace Provision

structure ObjectMeta where
  name : String
  ns : String
  deriving DecidableEq

structure ServiceAccount where
  email : String
  scopes : List String
  deriving DecidableEq

structure MetadataItem where
  key : String
  value : Option String
  deriving DecidableEq

structure DiskSpec where
  autoDelete : Bool
  boot : Bool
  sizeGb : Int64
  diskType : String
  image : String
  labels : Dict String
  deriving DecidableEq

structure InterfaceSpec where
  network : String
  subnetwork : String
  deriving DecidableEq

/-- The wanted instance. -/
structure MachineSpec where
  zone : String
  region : String
  project : Option String
  machineType : String
  labels : Dict String
  tags : List String
  canIpForward : Bool
  deletionProtection : Bool
  disks : List DiskSpec
  interfaces : List InterfaceSpec
  serviceAccounts : List ServiceAccount
  metadata : List MetadataItem
  /-- The name of the secret with the boot data. -/
  userDataSecret : Option String
  deriving DecidableEq

inductive AddressKind where
  | internal
  | external
  deriving DecidableEq

def AddressKind.name : AddressKind → String
  | .internal => "InternalIP"
  | .external => "ExternalIP"

structure NodeAddress where
  kind : AddressKind
  address : String
  deriving DecidableEq

/-- Why a machine cannot be made what it should be. -/
inductive ErrorReason where
  | invalidConfiguration
  | createError
  | updateError
  | deleteError
  deriving DecidableEq

def ErrorReason.name : ErrorReason → String
  | .invalidConfiguration => "InvalidConfiguration"
  | .createError => "CreateError"
  | .updateError => "UpdateError"
  | .deleteError => "DeleteError"

structure ProviderStatus where
  instanceId : Option String
  instanceState : Option String
  deriving DecidableEq

/-- What has been observed. -/
structure MachineStatus where
  addresses : List NodeAddress
  providerId : Option String
  provider : ProviderStatus
  errorReason : Option ErrorReason
  errorMessage : Option String
  deriving DecidableEq

structure Machine where
  metadata : ObjectMeta
  spec : MachineSpec
  status : MachineStatus
  deriving DecidableEq

instance : Inhabited ObjectMeta := ⟨⟨"", ""⟩⟩

instance : Inhabited MachineSpec :=
  ⟨⟨"", "", none, "", ∅, [], false, false, [], [], [], [], none⟩⟩

instance : Inhabited MachineStatus := ⟨⟨[], none, ⟨none, none⟩, none, none⟩⟩

instance : Inhabited Machine := ⟨⟨default, default, default⟩⟩

namespace Machine

def name (m : Machine) : String := m.metadata.name

def ns (m : Machine) : String := m.metadata.ns

end Machine

/-- The metadata key of the boot data. -/
def userDataKey : String := "user-data"

def providerScheme : String := "gce"

/-- What an instance is known by outside its project. -/
def providerId (project zone name : String) : String :=
  providerScheme ++ "://" ++ project ++ "/" ++ zone ++ "/" ++ name

end Provision
