import Provision.Compute.Instance

/-!
From a wanted machine to the instance that is asked for, and from an instance that is seen to what
is known of the machine.
-/
namespace Provision

namespace DiskSpec

/-- A size that is negative is not asked for. -/
def requestedSize (d : DiskSpec) : Option UInt64 :=
  if 0 ≤ d.sizeGb.toInt then some (.ofNat d.sizeGb.toInt.toNat) else none

def request (zone : String) (d : DiskSpec) : Disk where
  autoDelete := d.autoDelete
  boot := d.boot
  source := some
    { sizeGb := d.requestedSize
      diskType := "zones/" ++ zone ++ "/diskTypes/" ++ d.diskType
      labels := d.labels
      image := d.image }

end DiskSpec

namespace InterfaceSpec

def request (project region : String) (n : InterfaceSpec) : NetworkInterface where
  network :=
    if n.network = "" then "" else "projects/" ++ project ++ "/global/networks/" ++ n.network
  subnetwork :=
    if n.subnetwork = "" then "" else "regions/" ++ region ++ "/subnetworks/" ++ n.subnetwork
  address := ""
  accessConfigs := [.ephemeral]

end InterfaceSpec

namespace Machine

/-- The instance to ask for. The encoded boot data are the first of its metadata, also when
empty. -/
def request (m : Machine) (project userData : String) : Instance where
  name := m.name
  id := none
  machineType := "zones/" ++ m.spec.zone ++ "/machineTypes/" ++ m.spec.machineType
  canIpForward := m.spec.canIpForward
  deletionProtection := m.spec.deletionProtection
  labels := m.spec.labels
  tags := some m.spec.tags
  disks := m.spec.disks.map (·.request m.spec.zone)
  interfaces := m.spec.interfaces.map (·.request project m.spec.region)
  serviceAccounts := m.spec.serviceAccounts
  metadata := some (⟨userDataKey, some userData⟩ :: m.spec.metadata)
  status := ""
  zone := ""

end Machine

/-- What a status takes from an instance. -/
structure Observation where
  addresses : List NodeAddress
  instanceId : String
  instanceState : String
  deriving DecidableEq

/-- The internal address of the first interface and then its external ones. An instance without an
interface tells nothing. -/
def Instance.observation? (i : Instance) : Option Observation :=
  match i.interfaces with
  | [] => none
  | n :: _ =>
    some
      { addresses := ⟨.internal, n.address⟩ :: n.accessConfigs.map fun c => ⟨.external, c.address⟩
        instanceId := i.name
        instanceState := i.status }

end Provision
