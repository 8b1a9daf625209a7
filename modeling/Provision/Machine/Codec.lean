import Provision.Json.Record
import Provision.Machine.Basic

/-!
Machines as JSON.
-/
namespace Provision

open Json

namespace ObjectMeta

def fields : Fields [String, String] :=
  .cons (.required "name" .string) <| .cons (.withDefault "namespace" .string "") .nil

def codec : Codec ObjectMeta :=
  .record "ObjectMeta" fields (fun m => (m.name, m.ns, ())) fun (name, ns, _) => ⟨name, ns⟩

end ObjectMeta

namespace ServiceAccount

def fields : Fields [String, List String] :=
  .cons (.required "email" .string) <| .cons (.withDefault "scopes" (.list .string) []) .nil

/-- The codec of an account of the given kind. -/
def codec (kind : String) : Codec ServiceAccount :=
  .record kind fields (fun a => (a.email, a.scopes, ())) fun (email, scopes, _) => ⟨email, scopes⟩

end ServiceAccount

namespace MetadataItem

def fields : Fields [String, Option String] :=
  .cons (.required "key" .string) <| .cons (.optional "value" .string) .nil

/-- The codec of an item of the given kind. -/
def codec (kind : String) : Codec MetadataItem :=
  .record kind fields (fun i => (i.key, i.value, ())) fun (key, value, _) => ⟨key, value⟩

end MetadataItem

namespace DiskSpec

def fields : Fields [Bool, Bool, Int64, String, String, Dict String] :=
  .cons (.withDefault "autoDelete" .bool false) <| .cons (.withDefault "boot" .bool false) <|
  .cons (.required "sizeGb" .int64) <| .cons (.required "type" .string) <|
  .cons (.withDefault "image" .string "") <| .cons (.withDefault "labels" (.dict .string) ∅) .nil

def codec : Codec DiskSpec :=
  .record "GcpDisk" fields
    (fun d => (d.autoDelete, d.boot, d.sizeGb, d.diskType, d.image, d.labels, ()))
    fun (autoDelete, boot, sizeGb, diskType, image, labels, _) =>
      ⟨autoDelete, boot, sizeGb, diskType, image, labels⟩

end DiskSpec

namespace InterfaceSpec

def fields : Fields [String, String] :=
  .cons (.withDefault "network" .string "") <| .cons (.withDefault "subnetwork" .string "") .nil

def codec : Codec InterfaceSpec :=
  .record "GcpNetworkInterface" fields (fun i => (i.network, i.subnetwork, ()))
    fun (network, subnetwork, _) => ⟨network, subnetwork⟩

end InterfaceSpec

/-- A reference to a secret is a record of its name. -/
def secretNameCodec : Codec String :=
  .record "SecretReference" (.cons (.required "name" .string) .nil) (fun name => (name, ()))
    fun (name, _) => name

namespace MachineSpec

def fields :
    Fields [String, String, Option String, String, Dict String, List String, Bool,
      Bool, List DiskSpec,
      List InterfaceSpec, List ServiceAccount, List MetadataItem, Option String] :=
  .cons (.required "zone" .string) <| .cons (.withDefault "region" .string "") <|
  .cons (.optional "projectID" .string) <| .cons (.required "machineType" .string) <|
  .cons (.withDefault "labels" (.dict .string) ∅) <|
    .cons (.withDefault "tags" (.list .string) []) <|
  .cons (.withDefault "canIPForward" .bool false) <|
  .cons (.withDefault "deletionProtection" .bool false) <|
  .cons (.withDefault "disks" (.list DiskSpec.codec) []) <|
  .cons (.withDefault "networkInterfaces" (.list InterfaceSpec.codec) []) <|
  .cons (.withDefault "serviceAccounts" (.list (ServiceAccount.codec "GcpServiceAccount")) []) <|
  .cons (.withDefault "metadata" (.list (MetadataItem.codec "GcpMetadata")) []) <|
  .cons (.optional "userDataSecret" secretNameCodec) .nil

def codec : Codec MachineSpec :=
  .record "GcpMachineProviderSpec" fields
    (fun s => (s.zone, s.region, s.project, s.machineType, s.labels, s.tags, s.canIpForward,
      s.deletionProtection, s.disks, s.interfaces, s.serviceAccounts, s.metadata,
      s.userDataSecret, ()))
    fun (zone, region, project, machineType, labels, tags, canIpForward, deletionProtection, disks,
        interfaces, serviceAccounts, metadata, userDataSecret, _) =>
      ⟨zone, region, project, machineType, labels, tags, canIpForward, deletionProtection, disks,
        interfaces, serviceAccounts, metadata, userDataSecret⟩

end MachineSpec

def AddressKind.codec : Codec AddressKind := .enumeration AddressKind.name [.internal, .external]

namespace NodeAddress

def fields : Fields [AddressKind, String] :=
  .cons (.required "type" AddressKind.codec) <| .cons (.required "address" .string) .nil

def codec : Codec NodeAddress :=
  .record "NodeAddress" fields (fun a => (a.kind, a.address, ()))
    fun (kind, address, _) => ⟨kind, address⟩

end NodeAddress

def ErrorReason.codec : Codec ErrorReason :=
  .enumeration ErrorReason.name [.invalidConfiguration, .createError, .updateError, .deleteError]

namespace ProviderStatus

def fields : Fields [Option String, Option String] :=
  .cons (.optional "instanceId" .string) <| .cons (.optional "instanceState" .string) .nil

def codec : Codec ProviderStatus :=
  .record "GcpMachineProviderStatus" fields (fun s => (s.instanceId, s.instanceState, ()))
    fun (instanceId, instanceState, _) => ⟨instanceId, instanceState⟩

end ProviderStatus

namespace MachineStatus

def fields :
    Fields [List NodeAddress, Option String, ProviderStatus, Option ErrorReason, Option String] :=
  .cons (.withDefault "addresses" (.list NodeAddress.codec) []) <|
  .cons (.optional "providerID" .string) <|
  .cons (.withDefault "providerStatus" ProviderStatus.codec ⟨none, none⟩) <|
  .cons (.optional "errorReason" ErrorReason.codec) <| .cons (.optional "errorMessage" .string) .nil

def codec : Codec MachineStatus :=
  .record "MachineStatus" fields
    (fun s => (s.addresses, s.providerId, s.provider, s.errorReason, s.errorMessage, ()))
    fun (addresses, providerId, provider, errorReason, errorMessage, _) =>
      ⟨addresses, providerId, provider, errorReason, errorMessage⟩

end MachineStatus

namespace Machine

def fields : Fields [ObjectMeta, MachineSpec, MachineStatus] :=
  .cons (.required "metadata" ObjectMeta.codec) <| .cons (.required "spec" MachineSpec.codec) <|
  .cons (.withDefault "status" MachineStatus.codec default) .nil

def codec : Codec Machine :=
  .record "Machine" fields (fun m => (m.metadata, m.spec, m.status, ()))
    fun (metadata, spec, status, _) => ⟨metadata, spec, status⟩

end Machine
end Provision
