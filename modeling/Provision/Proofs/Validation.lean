import Provision.Machine.Validation

/-!
What a machine that is not refused satisfies.
-/
namespace Provision

open Text (isBlank)

theorem ValidationError.ofViolations?_eq_none {vs : List Violation} :
    ofViolations? vs = none ↔ vs = [] := by
  match vs with
  | [] => exact ⟨fun _ => rfl, fun _ => rfl⟩
  | [v] => exact ⟨nofun, nofun⟩
  | v :: w :: vs => exact ⟨nofun, nofun⟩

theorem brokenIf_eq_nil {b : Bool} {r : BrokenRule} : brokenIf b r = [] ↔ b = false := by
  cases b with
  | false => exact ⟨fun _ => rfl, fun _ => rfl⟩
  | true => exact ⟨nofun, nofun⟩

/-- Rules on the items of a list are all kept when each item keeps them, wherever it stands. -/
theorem flatten_mapIdx_eq_nil {α : Type} {broken : Nat → α → List BrokenRule} {P : α → Prop}
    (h : ∀ i a, broken i a = [] ↔ P a) (as : List α) :
    (as.mapIdx broken).flatten = [] ↔ ∀ a ∈ as, P a := by
  induction as generalizing broken with
  | nil => simp
  | cons a as ih =>
    rw [List.mapIdx_cons, List.flatten_cons, List.append_eq_nil_iff, h, ih fun i a => h (i + 1) a,
      List.forall_mem_cons]

/-- What the rules ask of a disk. -/
structure DiskSpec.Sound (d : DiskSpec) : Prop where
  diskType : isBlank d.diskType = false
  size : 0 < d.sizeGb.toInt
  image : d.boot = true → isBlank d.image = false

theorem DiskSpec.broken_eq_nil {i : Nat} {d : DiskSpec} : d.broken i = [] ↔ d.Sound := by
  have hsize : ¬d.sizeGb ≤ 0 ↔ 0 < d.sizeGb.toInt := by
    rw [Int64.le_iff_toInt_le]
    exact Int.not_le
  simp only [broken, List.append_eq_nil_iff, brokenIf_eq_nil, decide_eq_false_iff_not, hsize,
    Bool.and_eq_false_imp]
  exact ⟨fun ⟨⟨htype, hpositive⟩, himage⟩ => ⟨htype, hpositive, himage⟩,
    fun h => ⟨⟨h.diskType, h.size⟩, h.image⟩⟩

/-- The keys are good when each differs from the empty one, from the reserved one and from all
before it. -/
theorem brokenKeys_eq_nil {i : Nat} {seen : List String} {items : List MetadataItem} :
    brokenKeys i seen items = [] ↔
      (∀ item ∈ items, item.key ≠ "" ∧ item.key ≠ userDataKey ∧ item.key ∉ seen) ∧
        (items.map (·.key)).Nodup := by
  induction items generalizing i seen with
  | nil => simp [brokenKeys]
  | cons item items ih =>
    unfold brokenKeys
    split
    next h => simp [h]
    next hempty =>
      split
      next h => simp [h]
      next hreserved =>
        split
        next h => simp [h]
        next hnew =>
          have hkey : item.key ≠ "" ∧ item.key ≠ userDataKey ∧ item.key ∉ seen :=
            ⟨hempty, hreserved, hnew⟩
          rw [ih, List.forall_mem_cons, List.map_cons, List.nodup_cons]
          simp only [List.mem_cons, not_or, List.mem_map, not_exists, not_and]
          constructor
          · rintro ⟨hitems, hnodup⟩
            refine ⟨⟨hkey, fun x hx => ?_⟩, fun x hx => ?_, hnodup⟩
            · obtain ⟨hx1, hx2, _, hx3⟩ := hitems x hx
              exact ⟨hx1, hx2, hx3⟩
            · exact (hitems x hx).2.2.1
          · rintro ⟨⟨_, hitems⟩, hdistinct, hnodup⟩
            refine ⟨fun x hx => ?_, hnodup⟩
            obtain ⟨hx1, hx2, hx3⟩ := hitems x hx
            exact ⟨hx1, hx2, hdistinct x hx, hx3⟩

namespace MachineSpec

variable {s : MachineSpec}

theorem brokenDisks_eq_nil : s.brokenDisks = [] ↔ s.bootDisks = 1 ∧ ∀ d ∈ s.disks, d.Sound := by
  have hitems : (s.disks.mapIdx DiskSpec.broken).flatten = [] ↔ ∀ d ∈ s.disks, d.Sound :=
    flatten_mapIdx_eq_nil (P := DiskSpec.Sound) (fun _ _ => DiskSpec.broken_eq_nil) s.disks
  have hboot : s.disks.isEmpty = false ∧ (!s.disks.isEmpty && decide (s.bootDisks ≠ 1)) = false ↔
      s.bootDisks = 1 := by
    unfold bootDisks
    cases s.disks with
    | nil => simp
    | cons d ds => simp
  simp only [brokenDisks, List.append_eq_nil_iff, brokenIf_eq_nil, hitems, hboot]

end MachineSpec

namespace Machine

/-- No rule of any group is broken. -/
structure Accepted (m : Machine) : Prop where
  name : instanceNameFault? m.name = none
  zone : isBlank m.spec.zone = false
  machineType : isBlank m.spec.machineType = false
  project : m.spec.project.any isBlank = false
  disks : m.spec.brokenDisks = []
  interfaces : m.spec.brokenInterfaces = []
  accounts : m.spec.brokenAccounts = []
  metadata : brokenKeys 0 [] m.spec.metadata = []
  ns : (m.ns ≠ "" && !isDnsLabel m.ns) = false
  secret : m.spec.brokenSecret = []

variable {m : Machine}

/-- A machine is refused unless it breaks no rule. -/
theorem validationError?_eq_none : m.validationError? = none ↔ m.broken = [] := by
  unfold validationError?
  rw [ValidationError.ofViolations?_eq_none, List.map_eq_nil_iff]

theorem accepted (h : m.validationError? = none) : m.Accepted := by
  have hb := validationError?_eq_none.mp h
  simp only [broken, List.append_eq_nil_iff, brokenIf_eq_nil, List.map_eq_nil_iff,
    Option.toList_eq_nil_iff] at hb
  obtain ⟨⟨⟨⟨⟨⟨⟨⟨⟨hname, hzone⟩, htype⟩, hproject⟩, hdisks⟩, hinterfaces⟩, haccounts⟩, hmetadata⟩,
    hns⟩, hsecret⟩ := hb
  exact ⟨hname, hzone, htype, hproject, hdisks, hinterfaces, haccounts, hmetadata, hns, hsecret⟩

theorem interfaces_ne_nil (h : m.validationError? = none) : m.spec.interfaces ≠ [] := by
  have hempty := (accepted h).interfaces
  simp only [MachineSpec.brokenInterfaces, List.append_eq_nil_iff, brokenIf_eq_nil] at hempty
  exact List.isEmpty_eq_false_iff.mp hempty.1

end Machine
end Provision
