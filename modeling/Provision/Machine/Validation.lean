import Provision.Machine.Basic
import Provision.Machine.Name
import Provision.Text.Blank

/-!
What a machine must satisfy before an instance is made for it. Every broken rule is reported, in the
order of the rules.
-/
namespace Provision

/-- A field and what is wrong with it. -/
structure Violation where
  field : String
  reason : String
  deriving DecidableEq

def Violation.message (v : Violation) : String := v.field ++ ": " ++ v.reason

/-- One violation, or several in groups. -/
inductive ValidationError where
  | field (v : Violation)
  | multiple (errors : List ValidationError)

namespace ValidationError

mutual

/-- The single violations, from left to right. -/
def violations : ValidationError → List Violation
  | .field v => [v]
  | .multiple es => violationsOfAll es

def violationsOfAll : List ValidationError → List Violation
  | [] => []
  | e :: es => e.violations ++ violationsOfAll es

end

mutual

def message : ValidationError → String
  | .field v => v.message
  | .multiple es => String.intercalate "; " (messages es)

def messages : List ValidationError → List String
  | [] => []
  | e :: es => e.message :: messages es

end

/-- The error of a list of violations, if there are any. -/
def ofViolations? : List Violation → Option ValidationError
  | [] => none
  | [v] => some (.field v)
  | vs => some (.multiple (vs.map .field))

end ValidationError

/-- A rule that a machine breaks; where it is about one item of a list, with the item's place. -/
inductive BrokenRule where
  | name (fault : NameFault)
  | zone
  | machineType
  | project
  | noDisk
  | bootDisks (count : Nat)
  | diskType (i : Nat)
  | diskSize (i : Nat)
  | diskImage (i : Nat)
  | noInterface
  | subnetwork (i : Nat)
  | accountEmail (i : Nat)
  | emptyKey (i : Nat)
  | reservedKey (i : Nat)
  | repeatedKey (i : Nat) (key : String)
  | ns (value : String)
  | noSecretName
  | secretName (value : String)
  deriving DecidableEq

namespace BrokenRule

/-- A field of the item `i` of a list. -/
def itemField (list : String) (i : Nat) (field : String) : String :=
  "spec." ++ list ++ "[" ++ toString i ++ "]." ++ field

def field : BrokenRule → String
  | .name _ => "metadata.name"
  | .zone => "spec.zone"
  | .machineType => "spec.machineType"
  | .project => "spec.projectID"
  | .noDisk | .bootDisks _ => "spec.disks"
  | .diskType i => itemField "disks" i "type"
  | .diskSize i => itemField "disks" i "sizeGb"
  | .diskImage i => itemField "disks" i "image"
  | .noInterface => "spec.networkInterfaces"
  | .subnetwork i => itemField "networkInterfaces" i "subnetwork"
  | .accountEmail i => itemField "serviceAccounts" i "email"
  | .emptyKey i | .reservedKey i | .repeatedKey i _ => itemField "metadata" i "key"
  | .ns _ => "metadata.namespace"
  | .noSecretName | .secretName _ => "spec.userDataSecret.name"

def labelReason (value : String) : String := "'" ++ value ++ "' must be a DNS-1123 label"

def reason : BrokenRule → String
  | .name fault => fault.message
  | .zone => "zone is required"
  | .machineType => "machine type is required"
  | .project => "project cannot be blank when set"
  | .noDisk => "at least one disk is required"
  | .bootDisks count => "exactly one boot disk is required, found " ++ toString count
  | .diskType _ => "disk type is required"
  | .diskSize _ => "disk size must be positive"
  | .diskImage _ => "boot disk requires a source image"
  | .noInterface => "at least one network interface is required"
  | .subnetwork _ => "subnetwork requires spec.region"
  | .accountEmail _ => "service account email is required"
  | .emptyKey _ => "metadata key cannot be empty"
  | .reservedKey _ => userDataKey ++ " is reserved, use userDataSecret"
  | .repeatedKey _ key => "duplicate metadata key '" ++ key ++ "'"
  | .ns value => labelReason value
  | .noSecretName => "secret name is required"
  | .secretName value => labelReason value

def violation (r : BrokenRule) : Violation := ⟨r.field, r.reason⟩

end BrokenRule

open Text (isBlank)

/-- `[r]` when `b` holds. -/
def brokenIf (b : Bool) (r : BrokenRule) : List BrokenRule := if b then [r] else []

namespace DiskSpec

/-- What is wrong with the disk at `i`. -/
def broken (i : Nat) (d : DiskSpec) : List BrokenRule :=
  brokenIf (isBlank d.diskType) (.diskType i) ++ brokenIf (d.sizeGb ≤ 0) (.diskSize i) ++
    brokenIf (d.boot && isBlank d.image) (.diskImage i)

end DiskSpec

/-- What is wrong with the keys of items counted from `i`, when `seen` holds the good keys
before. -/
def brokenKeys (i : Nat) (seen : List String) : List MetadataItem → List BrokenRule
  | [] => []
  | item :: items =>
    if item.key = "" then .emptyKey i :: brokenKeys (i + 1) seen items
    else if item.key = userDataKey then .reservedKey i :: brokenKeys (i + 1) seen items
    else if item.key ∈ seen then .repeatedKey i item.key :: brokenKeys (i + 1) seen items
    else brokenKeys (i + 1) (item.key :: seen) items

namespace MachineSpec

def bootDisks (s : MachineSpec) : Nat := s.disks.countP (·.boot)

def brokenDisks (s : MachineSpec) : List BrokenRule :=
  brokenIf s.disks.isEmpty .noDisk ++
    brokenIf (!s.disks.isEmpty && s.bootDisks ≠ 1) (.bootDisks s.bootDisks) ++
    (s.disks.mapIdx DiskSpec.broken).flatten

def brokenInterfaces (s : MachineSpec) : List BrokenRule :=
  brokenIf s.interfaces.isEmpty .noInterface ++
    (s.interfaces.mapIdx fun i n =>
      brokenIf (n.subnetwork ≠ "" && isBlank s.region) (.subnetwork i)).flatten

def brokenAccounts (s : MachineSpec) : List BrokenRule :=
  (s.serviceAccounts.mapIdx fun i a => brokenIf (isBlank a.email) (.accountEmail i)).flatten

def brokenSecret (s : MachineSpec) : List BrokenRule :=
  match s.userDataSecret with
  | none => []
  | some name =>
    if isBlank name then [.noSecretName] else brokenIf (!isDnsLabel name) (.secretName name)

end MachineSpec

namespace Machine

/-- The broken rules. -/
def broken (m : Machine) : List BrokenRule :=
  (instanceNameFault? m.name).toList.map .name ++
  brokenIf (isBlank m.spec.zone) .zone ++
  brokenIf (isBlank m.spec.machineType) .machineType ++
  brokenIf (m.spec.project.any isBlank) .project ++
  m.spec.brokenDisks ++ m.spec.brokenInterfaces ++ m.spec.brokenAccounts ++
  brokenKeys 0 [] m.spec.metadata ++
  brokenIf (m.ns ≠ "" && !isDnsLabel m.ns) (.ns m.ns) ++
  m.spec.brokenSecret

/-- What a machine is refused for. -/
def validationError? (m : Machine) : Option ValidationError :=
  ValidationError.ofViolations? (m.broken.map BrokenRule.violation)

end Machine

/-- What an instance name is refused for. -/
def nameError? (s : String) : Option ValidationError :=
  (instanceNameFault? s).map fun f => .field (BrokenRule.name f).violation

end Provision
