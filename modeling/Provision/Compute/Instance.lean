import Provision.Machine.Codec

/-!
Instances as the provider keeps them, and zones. What is empty is not written.
-/
namespace Provision

open Json

/-- What a disk is made from. -/
structure DiskSource where
  sizeGb : Option UInt64
  diskType : String
  labels : Dict String
  image : String
  deriving DecidableEq

structure Disk where
  autoDelete : Bool
  boot : Bool
  source : Option DiskSource
  deriving DecidableEq

/-- How an interface is reached from outside. -/
structure AccessConfig where
  name : String
  accessType : String
  address : String
  deriving DecidableEq

structure NetworkInterface where
  network : String
  subnetwork : String
  address : String
  accessConfigs : List AccessConfig
  deriving DecidableEq

structure Instance where
  name : String
  id : Option UInt64
  machineType : String
  canIpForward : Bool
  deletionProtection : Bool
  labels : Dict String
  tags : Option (List String)
  disks : List Disk
  interfaces : List NetworkInterface
  serviceAccounts : List ServiceAccount
  metadata : Option (List MetadataItem)
  status : String
  zone : String
  deriving DecidableEq

structure Zone where
  name : String
  status : String
  region : String
  deriving DecidableEq

/-- Asks for an external address for as long as the instance lives. -/
def AccessConfig.ephemeral : AccessConfig := ⟨"External NAT", "ONE_TO_ONE_NAT", ""⟩

instance : Inhabited AccessConfig := ⟨.ephemeral⟩

instance : Inhabited Instance :=
  ⟨⟨"", none, "", false, false, ∅, none, [], [], [], none, "", ""⟩⟩

/-- The first metadata item of a key. -/
def Instance.metadataItem? (i : Instance) (key : String) : Option MetadataItem :=
  (i.metadata.getD []).find? fun item => item.key = key

namespace DiskSource

def fields : Fields [Option UInt64, String, Dict String, String] :=
  .cons ⟨"diskSizeGb", .numberText 124, some none, Option.isNone⟩ <|
  .cons (.omitting "diskType" .string "") <| .cons (.omitting "labels" (.dict .string) ∅) <|
  .cons (.omitting "sourceImage" .string "") .nil

def codec : Codec DiskSource :=
  .record "AttachedDiskInitializeParams" fields
    (fun s => (s.sizeGb, s.diskType, s.labels, s.image, ()))
    fun (sizeGb, diskType, labels, image, _) => ⟨sizeGb, diskType, labels, image⟩

end DiskSource

namespace Disk

def fields : Fields [Bool, Bool, Option DiskSource] :=
  .cons (.withDefault "autoDelete" .bool false) <| .cons (.withDefault "boot" .bool false) <|
  .cons (.optional "initializeParams" DiskSource.codec) .nil

def codec : Codec Disk :=
  .record "AttachedDisk" fields (fun d => (d.autoDelete, d.boot, d.source, ()))
    fun (autoDelete, boot, source, _) => ⟨autoDelete, boot, source⟩

end Disk

namespace AccessConfig

def fields : Fields [String, String, String] :=
  .cons (.omitting "name" .string "") <| .cons (.omitting "type" .string "") <|
  .cons (.omitting "natIP" .string "") .nil

def codec : Codec AccessConfig :=
  .record "AccessConfig" fields (fun c => (c.name, c.accessType, c.address, ()))
    fun (name, accessType, address, _) => ⟨name, accessType, address⟩

end AccessConfig

namespace NetworkInterface

def fields : Fields [String, String, String, List AccessConfig] :=
  .cons (.omitting "network" .string "") <| .cons (.omitting "subnetwork" .string "") <|
  .cons (.omitting "networkIP" .string "") <|
  .cons (.withDefault "accessConfigs" (.list AccessConfig.codec) []) .nil

def codec : Codec NetworkInterface :=
  .record "NetworkInterface" fields
    (fun n => (n.network, n.subnetwork, n.address, n.accessConfigs, ()))
    fun (network, subnetwork, address, accessConfigs, _) =>
      ⟨network, subnetwork, address, accessConfigs⟩

end NetworkInterface

/-- A list as the one field of a record. -/
def itemsCodec {α : Type} (record field : String) (c : Codec α) : Codec (List α) :=
  .record record (.cons (.withDefault field (.list c) []) .nil) (fun as => (as, ()))
    fun (as, _) => as

namespace Instance

def fields :
    Fields [String, Option UInt64, String, Bool, Bool, Dict String, Option (List String), List Disk,
      List NetworkInterface, List ServiceAccount, Option (List MetadataItem), String, String] :=
  .cons (.required "name" .string) <|
  .cons ⟨"id", .numberText 127, some none, Option.isNone⟩ <|
  .cons (.omitting "machineType" .string "") <| .cons (.withDefault "canIpForward" .bool false) <|
  .cons (.withDefault "deletionProtection" .bool false) <|
  .cons (.omitting "labels" (.dict .string) ∅) <|
  .cons (.optional "tags" (itemsCodec "Tags" "items" .string)) <|
  .cons (.omitting "disks" (.list Disk.codec) []) <|
  .cons (.omitting "networkInterfaces" (.list NetworkInterface.codec) []) <|
  .cons (.omitting "serviceAccounts" (.list (ServiceAccount.codec "ServiceAccount")) []) <|
  .cons (.optional "metadata"
    (itemsCodec "Metadata" "items" (MetadataItem.codec "MetadataItem"))) <|
  .cons (.omitting "status" .string "") <| .cons (.omitting "zone" .string "") .nil

def codec : Codec Instance :=
  .record "Instance" fields
    (fun i => (i.name, i.id, i.machineType, i.canIpForward, i.deletionProtection,
      i.labels, i.tags, i.disks,
      i.interfaces, i.serviceAccounts, i.metadata, i.status, i.zone, ()))
    fun (name, id, machineType, canIpForward, deletionProtection, labels, tags, disks, interfaces,
        serviceAccounts, metadata, status, zone, _) =>
      ⟨name, id, machineType, canIpForward, deletionProtection, labels, tags, disks, interfaces,
        serviceAccounts, metadata, status, zone⟩

end Instance

namespace Zone

def fields : Fields [String, String, String] :=
  .cons (.required "name" .string) <| .cons (.withDefault "status" .string "") <|
  .cons (.withDefault "region" .string "") .nil

def codec : Codec Zone :=
  .record "Zone" fields (fun z => (z.name, z.status, z.region, ()))
    fun (name, status, region, _) => ⟨name, status, region⟩

end Zone
end Provision
