import Mathlib.Data.List.Nodup
import Provision.Proofs.Names
import Provision.Proofs.Validation

/-!
What is reported of a machine. The rules that it breaks are said by what the machine holds, without
the order in which they are looked at; the report has one violation for each of them, and no two in
one field.
-/
namespace Provision

open Text (isBlank)

section Places

variable {α : Type} {P : Nat → α → Prop}

theorem exists_getElem?_cons {a : α} {as : List α} :
    (∃ i x, (a :: as)[i]? = some x ∧ P i x) ↔ P 0 a ∨ ∃ i x, as[i]? = some x ∧ P (i + 1) x := by
  constructor
  · rintro ⟨_ | i, x, hx, h⟩
    · obtain rfl := Option.some.inj hx
      exact .inl h
    · exact .inr ⟨i, x, hx, h⟩
  · rintro (h | ⟨i, x, hx, h⟩)
    · exact ⟨0, a, rfl, h⟩
    · exact ⟨i + 1, x, hx, h⟩

theorem mem_flatten_mapIdx {β : Type} {f : Nat → α → List β} {as : List α} {b : β} :
    b ∈ (as.mapIdx f).flatten ↔ ∃ i a, as[i]? = some a ∧ b ∈ f i a := by
  induction as generalizing f with
  | nil => simp
  | cons a as ih =>
    rw [List.mapIdx_cons, List.flatten_cons, List.mem_append, ih,
      exists_getElem?_cons (P := fun i x => b ∈ f i x)]

end Places

theorem mem_brokenIf {b : Bool} {r r' : BrokenRule} : r' ∈ brokenIf b r ↔ b = true ∧ r' = r := by
  cases b <;> simp [brokenIf]

/-- The rules that the disk at `i` breaks. -/
inductive DiskSpec.Breaks (i : Nat) (d : DiskSpec) : BrokenRule → Prop
  | diskType (h : isBlank d.diskType = true) : Breaks i d (.diskType i)
  | size (h : d.sizeGb.toInt ≤ 0) : Breaks i d (.diskSize i)
  | image (hboot : d.boot = true) (h : isBlank d.image = true) : Breaks i d (.diskImage i)

/-- The rule that the key of the item at `i` breaks, after the keys `before` it. -/
inductive MetadataItem.Breaks (i : Nat) (before : List String) (item : MetadataItem) :
    BrokenRule → Prop
  | empty (h : item.key = "") : Breaks i before item (.emptyKey i)
  | reserved (h : item.key = userDataKey) : Breaks i before item (.reservedKey i)
  | repeated (hempty : item.key ≠ "") (hreserved : item.key ≠ userDataKey) (h : item.key ∈ before) :
      Breaks i before item (.repeatedKey i item.key)

namespace Machine

/-- The rules that a machine breaks. -/
inductive Breaks (m : Machine) : BrokenRule → Prop
  | name {fault : NameFault} (h : instanceNameFault? m.name = some fault) : Breaks m (.name fault)
  | zone (h : isBlank m.spec.zone = true) : Breaks m .zone
  | machineType (h : isBlank m.spec.machineType = true) : Breaks m .machineType
  | project {p : String} (hp : m.spec.project = some p) (h : isBlank p = true) : Breaks m .project
  | noDisk (h : m.spec.disks = []) : Breaks m .noDisk
  | bootDisks (hdisks : m.spec.disks ≠ []) (h : m.spec.bootDisks ≠ 1) :
      Breaks m (.bootDisks m.spec.bootDisks)
  | disk {i : Nat} {d : DiskSpec} (hd : m.spec.disks[i]? = some d) {r : BrokenRule}
      (h : d.Breaks i r) : Breaks m r
  | noInterface (h : m.spec.interfaces = []) : Breaks m .noInterface
  | subnetwork {i : Nat} {n : InterfaceSpec} (hn : m.spec.interfaces[i]? = some n)
      (hsub : n.subnetwork ≠ "") (h : isBlank m.spec.region = true) : Breaks m (.subnetwork i)
  | account {i : Nat} {a : ServiceAccount} (ha : m.spec.serviceAccounts[i]? = some a)
      (h : isBlank a.email = true) :
      Breaks m (.accountEmail i)
  | key {i : Nat} {item : MetadataItem} (hi : m.spec.metadata[i]? = some item) {r : BrokenRule}
      (h : item.Breaks i ((m.spec.metadata.take i).map (·.key)) r) : Breaks m r
  | ns (hne : m.ns ≠ "") (h : ¬IsLabel m.ns) : Breaks m (.ns m.ns)
  | noSecretName {name : String} (hs : m.spec.userDataSecret = some name)
      (h : isBlank name = true) :
      Breaks m .noSecretName
  | secretName {name : String} (hs : m.spec.userDataSecret = some name)
      (hblank : isBlank name = false) (h : ¬IsLabel name) : Breaks m (.secretName name)

/-- What a machine must satisfy. -/
structure Valid (m : Machine) : Prop where
  name : IsInstanceName m.name
  zone : isBlank m.spec.zone = false
  machineType : isBlank m.spec.machineType = false
  project : ∀ p, m.spec.project = some p → isBlank p = false
  disk : m.spec.disks ≠ []
  bootDisk : m.spec.bootDisks = 1
  disks : ∀ d ∈ m.spec.disks, d.Sound
  interface : m.spec.interfaces ≠ []
  subnetworks : ∀ n ∈ m.spec.interfaces, n.subnetwork ≠ "" → isBlank m.spec.region = false
  accounts : ∀ a ∈ m.spec.serviceAccounts, isBlank a.email = false
  keys : ∀ item ∈ m.spec.metadata, item.key ≠ "" ∧ item.key ≠ userDataKey
  distinctKeys : (m.spec.metadata.map (·.key)).Nodup
  ns : m.ns = "" ∨ IsLabel m.ns
  secret : ∀ name, m.spec.userDataSecret = some name → IsLabel name

end Machine

section Membership

variable {r : BrokenRule}

theorem DiskSpec.mem_broken {i : Nat} {d : DiskSpec} : r ∈ d.broken i ↔ d.Breaks i r := by
  have hsize : d.sizeGb ≤ 0 ↔ d.sizeGb.toInt ≤ 0 := by
    rw [Int64.le_iff_toInt_le]
    rfl
  simp only [broken, List.mem_append, mem_brokenIf, Bool.and_eq_true, decide_eq_true_eq, hsize]
  constructor
  · rintro ((⟨h, rfl⟩ | ⟨h, rfl⟩) | ⟨⟨hboot, h⟩, rfl⟩)
    · exact .diskType h
    · exact .size h
    · exact .image hboot h
  · rintro (h | h | ⟨hboot, h⟩)
    · exact .inl (.inl ⟨h, rfl⟩)
    · exact .inl (.inr ⟨h, rfl⟩)
    · exact .inr ⟨⟨hboot, h⟩, rfl⟩

section Keys

variable {i : Nat} {before seen : List String} {item : MetadataItem}

theorem MetadataItem.breaks_of_empty (h : item.key = "") :
    item.Breaks i before r ↔ r = .emptyKey i := by
  refine ⟨?_, fun hr => hr ▸ .empty h⟩
  rintro (_ | hreserved | ⟨hempty, _, _⟩)
  · rfl
  · exact absurd (h.symm.trans hreserved) (by decide)
  · exact absurd h hempty

theorem MetadataItem.breaks_of_reserved (h : item.key = userDataKey) :
    item.Breaks i before r ↔ r = .reservedKey i := by
  refine ⟨?_, fun hr => hr ▸ .reserved h⟩
  rintro (hempty | _ | ⟨_, hreserved, _⟩)
  · exact absurd (hempty.symm.trans h) (by decide)
  · rfl
  · exact absurd h hreserved

theorem MetadataItem.breaks_of_free (hempty : item.key ≠ "") (hreserved : item.key ≠ userDataKey) :
    item.Breaks i before r ↔ item.key ∈ before ∧ r = .repeatedKey i item.key := by
  constructor
  · rintro (h | h | ⟨_, _, h⟩)
    · exact absurd h hempty
    · exact absurd h hreserved
    · exact ⟨h, rfl⟩
  · rintro ⟨h, rfl⟩
    exact .repeated hempty hreserved h

/-- The keys are looked at from the left; of those before an item, `seen` holds the ones that can be
repeated. -/
theorem mem_brokenKeys (before : List String) {items : List MetadataItem}
    (hseen : ∀ key, key ≠ "" → key ≠ userDataKey → (key ∈ seen ↔ key ∈ before)) :
    r ∈ brokenKeys i seen items ↔ ∃ (k : Nat) (item : MetadataItem), items[k]? = some item ∧
      item.Breaks (i + k) (before ++ (items.take k).map (·.key)) r := by
  induction items generalizing i seen before with
  | nil => simp [brokenKeys]
  | cons item items ih =>
    have hrest :
        ∀ seen',
          (∀ key, key ≠ "" → key ≠ userDataKey → (key ∈ seen' ↔ key ∈ seen ∨ key = item.key)) →
        (r ∈ brokenKeys (i + 1) seen' items ↔ ∃ (k : Nat) (x : MetadataItem), items[k]? = some x ∧
          x.Breaks (i + (k + 1)) (before ++ ((item :: items).take (k + 1)).map (·.key)) r) := by
      intro seen' hseen'
      have hbefore : ∀ key, key ≠ "" → key ≠ userDataKey →
          (key ∈ seen' ↔ key ∈ before ++ [item.key]) := by
        intro key hkey hkey'
        rw [hseen' key hkey hkey', hseen key hkey hkey', List.mem_append, List.mem_singleton]
      rw [ih _ hbefore]
      simp only [List.take_succ_cons, List.map_cons, List.append_assoc,
        List.singleton_append, Nat.add_assoc,
        Nat.add_comm 1]
    rw [exists_getElem?_cons
      (P := fun k (x : MetadataItem) =>
        x.Breaks (i + k) (before ++ ((item :: items).take k).map (·.key)) r)]
    simp only [List.take_zero, List.map_nil, List.append_nil, Nat.add_zero]
    unfold brokenKeys
    split
    next h =>
      have hkept : ∀ key, key ≠ "" → key ≠ userDataKey →
          (key ∈ seen ↔ key ∈ seen ∨ key = item.key) := by
        simp +contextual [h]
      rw [List.mem_cons, hrest seen hkept, MetadataItem.breaks_of_empty h]
    next hempty =>
      split
      next h =>
        have hkept : ∀ key, key ≠ "" → key ≠ userDataKey →
            (key ∈ seen ↔ key ∈ seen ∨ key = item.key) := by
          simp +contextual [h]
        rw [List.mem_cons, hrest seen hkept, MetadataItem.breaks_of_reserved h]
      next hreserved =>
        rw [MetadataItem.breaks_of_free hempty hreserved, ← hseen item.key hempty hreserved]
        split
        next h =>
          have hkept : ∀ key, key ≠ "" → key ≠ userDataKey →
              (key ∈ seen ↔ key ∈ seen ∨ key = item.key) := by
            rintro key - -
            exact ⟨.inl, fun hkey => hkey.elim id fun he => he ▸ h⟩
          rw [List.mem_cons, hrest seen hkept, and_iff_right h]
        next h =>
          have hadded : ∀ key, key ≠ "" → key ≠ userDataKey →
              (key ∈ item.key :: seen ↔ key ∈ seen ∨ key = item.key) :=
            fun key _ _ => List.mem_cons.trans or_comm
          rw [hrest (item.key :: seen) hadded]
          simp only [h, false_and, false_or]

example : brokenKeys 0 [] [⟨"a", "1"⟩, ⟨"", "2"⟩, ⟨"a", "3"⟩, ⟨userDataKey, "4"⟩,
  ⟨"b", "5"⟩, ⟨"a", "6"⟩] =
    [.emptyKey 1, .repeatedKey 2 "a", .reservedKey 3, .repeatedKey 5 "a"] := by decide

end Keys

namespace MachineSpec

variable {s : MachineSpec}

theorem mem_brokenDisks : r ∈ s.brokenDisks ↔ (s.disks = [] ∧ r = .noDisk) ∨
    (s.disks ≠ [] ∧ s.bootDisks ≠ 1 ∧ r = .bootDisks s.bootDisks) ∨
      ∃ (i : Nat) (d : DiskSpec), s.disks[i]? = some d ∧ d.Breaks i r := by
  simp only [brokenDisks, List.mem_append, mem_brokenIf, mem_flatten_mapIdx, DiskSpec.mem_broken,
    List.isEmpty_iff,
    Bool.and_eq_true, Bool.not_eq_true', List.isEmpty_eq_false_iff, decide_eq_true_eq,
    and_assoc, or_assoc]

theorem mem_brokenInterfaces : r ∈ s.brokenInterfaces ↔ (s.interfaces = [] ∧ r = .noInterface) ∨
    ∃ (i : Nat) (n : InterfaceSpec), s.interfaces[i]? = some n ∧ n.subnetwork ≠ "" ∧
      isBlank s.region = true ∧
      r = .subnetwork i := by
  simp only [brokenInterfaces, List.mem_append, mem_brokenIf, mem_flatten_mapIdx,
    List.isEmpty_iff, Bool.and_eq_true,
    decide_eq_true_eq, and_assoc]

theorem mem_brokenAccounts :
    r ∈ s.brokenAccounts ↔ ∃ (i : Nat) (a : ServiceAccount), s.serviceAccounts[i]? = some a ∧
      isBlank a.email = true ∧ r = .accountEmail i := by
  simp only [brokenAccounts, mem_flatten_mapIdx, mem_brokenIf]

theorem mem_brokenSecret : r ∈ s.brokenSecret ↔ ∃ name, s.userDataSecret = some name ∧
    ((isBlank name = true ∧ r = .noSecretName) ∨
      (isBlank name = false ∧ ¬IsLabel name ∧ r = .secretName name)) := by
  unfold brokenSecret
  split
  next h => simp [h]
  next name h =>
    simp only [h, Option.some.injEq, exists_eq_left']
    split
    next hblank => simp [hblank]
    next hblank => simp [hblank, mem_brokenIf, ← isDnsLabel_iff]

end MachineSpec

theorem Machine.mem_broken {m : Machine} : r ∈ m.broken ↔ m.Breaks r := by
  have hkeys : r ∈ brokenKeys 0 [] m.spec.metadata ↔ ∃ (i : Nat) (item : MetadataItem),
      m.spec.metadata[i]? = some item ∧ item.Breaks i ((m.spec.metadata.take i).map (·.key)) r := by
    rw [mem_brokenKeys [] fun _ _ _ => Iff.rfl]
    simp only [Nat.zero_add, List.nil_append]
  simp only [broken, List.mem_append, List.mem_map, Option.mem_toList, mem_brokenIf,
    Option.any_eq_true,
    Bool.and_eq_true, decide_eq_true_eq, Bool.not_eq_true', MachineSpec.mem_brokenDisks,
    MachineSpec.mem_brokenInterfaces, MachineSpec.mem_brokenAccounts, hkeys,
    MachineSpec.mem_brokenSecret, or_assoc]
  constructor
  · rintro (⟨fault, h, rfl⟩ | ⟨h, rfl⟩ | ⟨h, rfl⟩ | ⟨⟨p, hp, h⟩, rfl⟩ | ⟨h, rfl⟩ |
      ⟨hdisks, h, rfl⟩ | ⟨i, d, hd, h⟩ |
      ⟨h, rfl⟩ | ⟨i, n, hn, hsub, h, rfl⟩ | ⟨i, a, ha, h, rfl⟩ | ⟨i, item, hi, h⟩ |
        ⟨⟨hne, h⟩, rfl⟩ |
      ⟨name, hs, ⟨h, rfl⟩ | ⟨hblank, h, rfl⟩⟩)
    · exact .name h
    · exact .zone h
    · exact .machineType h
    · exact .project hp h
    · exact .noDisk h
    · exact .bootDisks hdisks h
    · exact .disk hd h
    · exact .noInterface h
    · exact .subnetwork hn hsub h
    · exact .account ha h
    · exact .key hi h
    · exact .ns hne fun hl => absurd (isDnsLabel_iff.mpr hl) (by simp [h])
    · exact .noSecretName hs h
    · exact .secretName hs hblank h
  · rintro (h | h | h | ⟨hp, h⟩ | h | ⟨hdisks, h⟩ | ⟨hd, h⟩ | h | ⟨hn, hsub, h⟩ | ⟨ha, h⟩ |
      ⟨hi, h⟩ | ⟨hne, h⟩ |
      ⟨hs, h⟩ | ⟨hs, hblank, h⟩)
    -- each constructor is one of the groups above
    case ns => grind [isDnsLabel_iff]
    all_goals grind

end Membership

/-- Where a rule is broken: in a field, or in a field of one item of the list there. -/
structure Place where
  root : String
  item : Option (Nat × String)
  deriving DecidableEq

namespace Place

def path (p : Place) : String :=
  match p.item with
  | none => p.root
  | some (i, field) => p.root ++ "[" ++ toString i ++ "]." ++ field

theorem toList_path_item {root field : String} {i : Nat} :
    (path ⟨root, some (i, field)⟩).toList =
      root.toList ++ '[' :: (Nat.toDigits 10 i ++ ']' :: '.' :: field.toList) := by
  simp [path, Nat.toString_eq_repr]

theorem item_inj {i j : Nat} {xs ys : List Char}
    (h : Nat.toDigits 10 i ++ ']' :: xs = Nat.toDigits 10 j ++ ']' :: ys) : i = j ∧ xs = ys := by
  have hdigits : ∀ n, ']' ∉ Nat.toDigits 10 n := fun n hmem =>
    absurd (Nat.isDigit_of_mem_toDigits (by decide) (by decide) hmem) (by decide)
  obtain ⟨hij, hrest⟩ := eq_of_append_separator (hdigits i) (hdigits j) h
  have hvalue := congrArg (Nat.ofDigitChars 10 · 0) hij
  exact ⟨by simpa using hvalue, hrest⟩

theorem bracket_mem_path_item {root field : String} {i : Nat} :
    '[' ∈ (path ⟨root, some (i, field)⟩).toList := by
  rw [toList_path_item]
  exact List.mem_append_right _ (List.mem_cons_self ..)

/-- A path can be read back, where the root has no bracket itself. -/
theorem path_inj {p q : Place} (hp : '[' ∉ p.root.toList) (hq : '[' ∉ q.root.toList)
    (h : p.path = q.path) : p = q := by
  match p, q with
  | ⟨root, none⟩, ⟨root', none⟩ => exact congrArg (Place.mk · none) h
  | ⟨root, none⟩, ⟨root', some (j, field')⟩ =>
    have hmem : '[' ∈ root.toList := (congrArg String.toList h) ▸ bracket_mem_path_item
    exact absurd hmem hp
  | ⟨root, some (i, field)⟩, ⟨root', none⟩ =>
    have hmem : '[' ∈ root'.toList := (congrArg String.toList h) ▸ bracket_mem_path_item
    exact absurd hmem hq
  | ⟨root, some (i, field)⟩, ⟨root', some (j, field')⟩ =>
    have hlists := congrArg String.toList h
    rw [toList_path_item, toList_path_item] at hlists
    obtain ⟨hroot, hrest⟩ := eq_of_append_separator hp hq hlists
    obtain ⟨rfl, hfield⟩ := item_inj hrest
    obtain rfl := String.toList_inj.mp hroot
    obtain rfl := String.toList_inj.mp (List.cons.inj hfield).2
    rfl

end Place

namespace BrokenRule

def place : BrokenRule → Place
  | .name _ => ⟨"metadata.name", none⟩
  | .zone => ⟨"spec.zone", none⟩
  | .machineType => ⟨"spec.machineType", none⟩
  | .project => ⟨"spec.projectID", none⟩
  | .noDisk | .bootDisks _ => ⟨"spec.disks", none⟩
  | .diskType i => ⟨"spec.disks", some (i, "type")⟩
  | .diskSize i => ⟨"spec.disks", some (i, "sizeGb")⟩
  | .diskImage i => ⟨"spec.disks", some (i, "image")⟩
  | .noInterface => ⟨"spec.networkInterfaces", none⟩
  | .subnetwork i => ⟨"spec.networkInterfaces", some (i, "subnetwork")⟩
  | .accountEmail i => ⟨"spec.serviceAccounts", some (i, "email")⟩
  | .emptyKey i | .reservedKey i | .repeatedKey i _ => ⟨"spec.metadata", some (i, "key")⟩
  | .ns _ => ⟨"metadata.namespace", none⟩
  | .noSecretName | .secretName _ => ⟨"spec.userDataSecret.name", none⟩

theorem path_place (r : BrokenRule) : r.place.path = r.field := by
  cases r <;> rfl

theorem bracket_notMem_root (r : BrokenRule) : '[' ∉ r.place.root.toList := by
  cases r <;> simp [place]

theorem place_eq_of_field {r r' : BrokenRule} (h : r.field = r'.field) : r.place = r'.place := by
  rw [← path_place, ← path_place] at h
  exact Place.path_inj r.bracket_notMem_root r'.bracket_notMem_root h

end BrokenRule

section Groups

variable {α : Type} {root : String} {rules rules' : List BrokenRule}

/-- Rules broken at different places under one root. -/
structure IsGroup (root : String) (rules : List BrokenRule) : Prop where
  root : ∀ r ∈ rules, r.place.root = root
  nodup : (rules.map BrokenRule.place).Nodup

theorem disjoint_places (h : ∀ r ∈ rules, ∀ r' ∈ rules', r.place ≠ r'.place) :
    (rules.map BrokenRule.place).Disjoint (rules'.map BrokenRule.place) := by
  refine List.disjoint_left.mpr fun p hp hp' => ?_
  obtain ⟨r, hr, rfl⟩ := List.mem_map.mp hp
  obtain ⟨r', hr', he⟩ := List.mem_map.mp hp'
  exact h r hr r' hr' he.symm

theorem IsGroup.of_sublist (h : IsGroup root rules) (hs : rules'.Sublist rules) :
    IsGroup root rules' :=
  ⟨fun r hr => h.root r (hs.subset hr), h.nodup.sublist (hs.map _)⟩

theorem IsGroup.append (h : IsGroup root rules) (h' : IsGroup root rules')
    (hne : ∀ r ∈ rules, ∀ r' ∈ rules', r.place ≠ r'.place) : IsGroup root (rules ++ rules') where
  root r hr := (List.mem_append.mp hr).elim (h.root r) (h'.root r)
  nodup := by
    rw [List.map_append]
    exact h.nodup.append h'.nodup (disjoint_places hne)

theorem isGroup_singleton (r : BrokenRule) : IsGroup r.place.root [r] :=
  ⟨fun _ h => List.mem_singleton.mp h ▸ rfl, List.nodup_singleton _⟩

theorem brokenIf_sublist (b : Bool) (r : BrokenRule) : (brokenIf b r).Sublist [r] := by
  cases b with
  | false => exact List.nil_sublist _
  | true => exact .refl _

theorem isGroup_brokenIf (b : Bool) (r : BrokenRule) : IsGroup r.place.root (brokenIf b r) :=
  (isGroup_singleton r).of_sublist (brokenIf_sublist b r)

/-- The rules on the items of a list, when those on an item are broken in fields of that item. -/
theorem isGroup_flatten_mapIdx {broken : Nat → α → List BrokenRule}
    (h : ∀ i a, IsGroup root (broken i a))
    (hitem : ∀ i a, ∀ r ∈ broken i a, r.place.item.map Prod.fst = some i) (as : List α) :
    IsGroup root (as.mapIdx broken).flatten where
  root r hr := by
    obtain ⟨i, a, _, hr⟩ := mem_flatten_mapIdx.mp hr
    exact (h i a).root r hr
  nodup := by
    rw [List.map_flatten, List.nodup_flatten]
    constructor
    · simp only [List.forall_mem_map, List.mem_mapIdx]
      rintro _ ⟨i, _, rfl⟩
      exact (h i _).nodup
    · refine List.pairwise_map.mpr (List.pairwise_iff_getElem.mpr fun i j hi hj hij => ?_)
      simp only [List.getElem_mapIdx]
      refine disjoint_places fun r hr r' hr' he => ?_
      have hindex := hitem i _ r hr
      rw [he, hitem j _ r' hr'] at hindex
      exact absurd (Option.some.inj hindex) (Nat.ne_of_gt hij)

/-- No place twice in groups under different roots. -/
theorem nodup_places_flatten {groups : List (String × List BrokenRule)}
    (hroots : (groups.map Prod.fst).Nodup) (h : ∀ g ∈ groups, IsGroup g.1 g.2) :
    ((groups.map Prod.snd).flatten.map BrokenRule.place).Nodup := by
  rw [List.map_flatten, List.nodup_flatten, List.map_map]
  refine ⟨List.forall_mem_map.mpr fun g hg => (h g hg).nodup, List.pairwise_map.mpr ?_⟩
  refine (List.pairwise_map.mp hroots).imp_of_mem fun {g g'} hg hg' hne => disjoint_places
    fun r hr r' hr' he => ?_
  exact hne
    (((h g hg).root r hr).symm.trans ((congrArg Place.root he).trans ((h g' hg').root r' hr')))

end Groups

section Report

theorem DiskSpec.isGroup_broken (i : Nat) (d : DiskSpec) : IsGroup "spec.disks" (d.broken i) := by
  have hall : IsGroup "spec.disks" [.diskType i, .diskSize i, .diskImage i] :=
    ⟨by simp [BrokenRule.place], by simp [BrokenRule.place]⟩
  exact hall.of_sublist
    (((brokenIf_sublist ..).append (brokenIf_sublist ..)).append (brokenIf_sublist ..))

theorem DiskSpec.Breaks.item {i : Nat} {d : DiskSpec} {r : BrokenRule} (h : d.Breaks i r) :
    r.place.item.map Prod.fst = some i := by
  cases h <;> rfl

theorem MetadataItem.Breaks.place {i : Nat} {before : List String}
    {item : MetadataItem} {r : BrokenRule} (h : item.Breaks i before r) :
    r.place = ⟨"spec.metadata", some (i, "key")⟩ := by
  cases h <;> rfl

theorem place_of_mem_brokenKeys {i : Nat} {seen : List String} {items : List MetadataItem}
    {r : BrokenRule} (h : r ∈ brokenKeys i seen items) :
    ∃ k, r.place = ⟨"spec.metadata", some (i + k, "key")⟩ := by
  obtain ⟨k, _, _, hr⟩ := (mem_brokenKeys seen fun _ _ _ => Iff.rfl).mp h
  exact ⟨k, hr.place⟩

theorem isGroup_brokenKeys {i : Nat} {seen : List String} {items : List MetadataItem} :
    IsGroup "spec.metadata" (brokenKeys i seen items) where
  root r hr := by
    obtain ⟨k, hk⟩ := place_of_mem_brokenKeys hr
    rw [hk]
  nodup := by
    induction items generalizing i seen with
    | nil => exact List.nodup_nil
    | cons item items ih =>
      have hrest : ∀ seen, (⟨"spec.metadata", some (i, "key")⟩ : Place) ∉
          (brokenKeys (i + 1) seen items).map BrokenRule.place := by
        intro seen hmem
        obtain ⟨r, hr, he⟩ := List.mem_map.mp hmem
        obtain ⟨k, hk⟩ := place_of_mem_brokenKeys hr
        simp only [hk, Place.mk.injEq, Option.some.injEq, Prod.mk.injEq, true_and, and_true] at he
        omega
      unfold brokenKeys
      split
      · exact List.nodup_cons.mpr ⟨hrest _, ih⟩
      split
      · exact List.nodup_cons.mpr ⟨hrest _, ih⟩
      split
      · exact List.nodup_cons.mpr ⟨hrest _, ih⟩
      · exact ih

namespace MachineSpec

variable (s : MachineSpec)

theorem isGroup_brokenDisks : IsGroup "spec.disks" s.brokenDisks := by
  have hwhole : IsGroup "spec.disks" (brokenIf s.disks.isEmpty .noDisk ++
      brokenIf (!s.disks.isEmpty && s.bootDisks ≠ 1) (.bootDisks s.bootDisks)) := by
    cases s.disks.isEmpty with
    | false => exact isGroup_brokenIf _ (.bootDisks s.bootDisks)
    | true => exact isGroup_singleton .noDisk
  refine hwhole.append (isGroup_flatten_mapIdx DiskSpec.isGroup_broken ?_ _) ?_
  · exact fun i d r hr => (DiskSpec.mem_broken.mp hr).item
  · intro r hr r' hr' he
    obtain ⟨i, d, _, hd⟩ := mem_flatten_mapIdx.mp hr'
    have hitem := (DiskSpec.mem_broken.mp hd).item
    rw [← he] at hitem
    simp only [List.mem_append, mem_brokenIf] at hr
    obtain ⟨_, rfl⟩ | ⟨_, rfl⟩ := hr <;> cases hitem

theorem isGroup_brokenInterfaces : IsGroup "spec.networkInterfaces" s.brokenInterfaces := by
  refine (isGroup_brokenIf _ .noInterface).append
    (isGroup_flatten_mapIdx (fun i n => isGroup_brokenIf _ (.subnetwork i)) ?_ _) ?_
  · intro i n r hr
    obtain ⟨_, rfl⟩ := mem_brokenIf.mp hr
    rfl
  · intro r hr r' hr' he
    obtain ⟨i, n, _, hn⟩ := mem_flatten_mapIdx.mp hr'
    obtain ⟨_, rfl⟩ := mem_brokenIf.mp hr
    obtain ⟨_, rfl⟩ := mem_brokenIf.mp hn
    cases he

theorem isGroup_brokenAccounts : IsGroup "spec.serviceAccounts" s.brokenAccounts := by
  refine isGroup_flatten_mapIdx (fun i a => isGroup_brokenIf _ (.accountEmail i)) ?_ _
  intro i a r hr
  obtain ⟨_, rfl⟩ := mem_brokenIf.mp hr
  rfl

theorem isGroup_brokenSecret : IsGroup "spec.userDataSecret.name" s.brokenSecret := by
  unfold brokenSecret
  split
  · exact ⟨nofun, List.nodup_nil⟩
  split
  · exact isGroup_singleton .noSecretName
  · exact isGroup_brokenIf _ (.secretName _)

end MachineSpec

namespace Machine

variable (m : Machine)

/-- The broken rules by the roots under which they are broken. -/
def groups : List (String × List BrokenRule) :=
  [("metadata.name", (instanceNameFault? m.name).toList.map .name),
   ("spec.zone", brokenIf (isBlank m.spec.zone) .zone),
   ("spec.machineType", brokenIf (isBlank m.spec.machineType) .machineType),
   ("spec.projectID", brokenIf (m.spec.project.any isBlank) .project),
   ("spec.disks", m.spec.brokenDisks),
   ("spec.networkInterfaces", m.spec.brokenInterfaces),
   ("spec.serviceAccounts", m.spec.brokenAccounts),
   ("spec.metadata", brokenKeys 0 [] m.spec.metadata),
   ("metadata.namespace", brokenIf (m.ns ≠ "" && !isDnsLabel m.ns) (.ns m.ns)),
   ("spec.userDataSecret.name", m.spec.brokenSecret)]

theorem flatten_groups : (m.groups.map Prod.snd).flatten = m.broken := by
  simp [groups, broken]

theorem isGroup_of_mem_groups : ∀ g ∈ m.groups, IsGroup g.1 g.2 := by
  have hname : IsGroup "metadata.name" ((instanceNameFault? m.name).toList.map .name) := by
    cases instanceNameFault? m.name with
    | none => exact ⟨nofun, List.nodup_nil⟩
    | some fault => exact isGroup_singleton (.name fault)
  simp only [groups, List.forall_mem_cons]
  exact ⟨hname, isGroup_brokenIf _ .zone, isGroup_brokenIf _ .machineType,
    isGroup_brokenIf _ .project,
    m.spec.isGroup_brokenDisks, m.spec.isGroup_brokenInterfaces, m.spec.isGroup_brokenAccounts,
    isGroup_brokenKeys,
    isGroup_brokenIf _ (.ns m.ns), m.spec.isGroup_brokenSecret, nofun⟩

theorem nodup_places_broken : (m.broken.map BrokenRule.place).Nodup := by
  rw [← flatten_groups]
  have hroots : (m.groups.map Prod.fst).Nodup := by
    simp only [groups, List.map_cons, List.map_nil]
    decide
  exact nodup_places_flatten hroots m.isGroup_of_mem_groups

theorem nodup_broken : m.broken.Nodup := m.nodup_places_broken.of_map _

theorem nodup_fields_broken : (m.broken.map BrokenRule.field).Nodup := by
  refine m.nodup_broken.map_on fun r hr r' hr' he => ?_
  exact List.inj_on_of_nodup_map m.nodup_places_broken hr hr' (BrokenRule.place_eq_of_field he)

end Machine

end Report

section Accepted

theorem ValidationError.violationsOfAll_fields (vs : List Violation) :
    violationsOfAll (vs.map .field) = vs := by
  induction vs with
  | nil => rfl
  | cons v vs ih => exact congrArg (v :: ·) ih

theorem ValidationError.violations_ofViolations? (vs : List Violation) :
    (ofViolations? vs).elim [] violations = vs := by
  match vs with
  | [] => rfl
  | [v] => rfl
  | v :: w :: vs => exact violationsOfAll_fields (v :: w :: vs)

namespace MachineSpec

variable {s : MachineSpec}

theorem brokenInterfaces_eq_nil : s.brokenInterfaces = [] ↔
    s.interfaces ≠ [] ∧ ∀ n ∈ s.interfaces, n.subnetwork ≠ "" → isBlank s.region = false := by
  simp only [brokenInterfaces, List.append_eq_nil_iff, brokenIf_eq_nil, List.isEmpty_eq_false_iff]
  rw [flatten_mapIdx_eq_nil
    (P := fun n : InterfaceSpec => n.subnetwork ≠ "" → isBlank s.region = false)]
  intro i n
  simp only [brokenIf_eq_nil, Bool.and_eq_false_imp, decide_eq_true_eq]

theorem brokenAccounts_eq_nil :
    s.brokenAccounts = [] ↔ ∀ a ∈ s.serviceAccounts, isBlank a.email = false :=
  flatten_mapIdx_eq_nil (P := fun a : ServiceAccount => isBlank a.email = false)
    (fun _ _ => brokenIf_eq_nil) _

theorem brokenSecret_eq_nil :
    s.brokenSecret = [] ↔ ∀ name, s.userDataSecret = some name → IsLabel name := by
  unfold brokenSecret
  split
  next h => simp [h]
  next name h =>
    simp only [h, Option.some.injEq, forall_eq']
    split
    next hblank =>
      refine ⟨nofun, fun hl => ?_⟩
      exact absurd hl.isBlank_eq_false (by simp [hblank])
    next => rw [brokenIf_eq_nil, Bool.not_eq_false', isDnsLabel_iff]

end MachineSpec

theorem Machine.broken_eq_nil {m : Machine} : m.broken = [] ↔ m.Valid := by
  have hproject : m.spec.project.any isBlank = false ↔ ∀ p, m.spec.project = some p →
      isBlank p = false := by
    cases m.spec.project <;> simp
  simp only [broken, List.append_eq_nil_iff, brokenIf_eq_nil, List.map_eq_nil_iff,
    Option.toList_eq_nil_iff,
    instanceNameFault?_eq_none, hproject, MachineSpec.brokenDisks_eq_nil,
    MachineSpec.brokenInterfaces_eq_nil, MachineSpec.brokenAccounts_eq_nil, brokenKeys_eq_nil,
    MachineSpec.brokenSecret_eq_nil, Bool.and_eq_false_imp, decide_eq_true_eq,
    Bool.not_eq_false', isDnsLabel_iff,
    List.not_mem_nil, not_false_eq_true, and_true]
  constructor
  · rintro ⟨⟨⟨⟨⟨⟨⟨⟨⟨hname, hzone⟩, htype⟩, hproject⟩, hboot, hdisks⟩, hinterface, hsubnetworks⟩,
      haccounts⟩, hkeys,
      hdistinct⟩, hns⟩, hsecret⟩
    have hdisk : m.spec.disks ≠ [] := by
      intro hnil
      simp [MachineSpec.bootDisks, hnil] at hboot
    exact ⟨hname, hzone, htype, hproject, hdisk, hboot, hdisks, hinterface, hsubnetworks,
      haccounts, hkeys, hdistinct,
      Decidable.or_iff_not_imp_left.mpr hns, hsecret⟩
  · intro h
    exact ⟨⟨⟨⟨⟨⟨⟨⟨⟨h.name, h.zone⟩, h.machineType⟩, h.project⟩, h.bootDisk, h.disks⟩,
      h.interface, h.subnetworks⟩,
      h.accounts⟩, h.keys, h.distinctKeys⟩, Decidable.or_iff_not_imp_left.mp h.ns⟩, h.secret⟩

end Accepted

/-- A machine is accepted exactly when it is valid. Any other is refused with one violation for each
rule that it breaks, no two of them in one field. -/
theorem Machine.refused_exactly (m : Machine) :
    (m.validationError? = none ↔ m.Valid) ∧
      (m.Valid ∨ ∃ (e : ValidationError) (rules : List BrokenRule), m.validationError? = some e ∧
        rules ≠ [] ∧ rules.Nodup ∧ (∀ r, r ∈ rules ↔ m.Breaks r) ∧
        e.violations = rules.map BrokenRule.violation ∧
          (e.violations.map Violation.field).Nodup) := by
  have hvalid : m.validationError? = none ↔ m.Valid := validationError?_eq_none.trans broken_eq_nil
  refine ⟨hvalid, ?_⟩
  have hreport :
      m.validationError?.elim [] ValidationError.violations = m.broken.map BrokenRule.violation :=
    ValidationError.violations_ofViolations? _
  cases he : m.validationError? with
  | none => exact .inl (hvalid.mp he)
  | some e =>
    have hbroken : m.broken ≠ [] := fun hnil => by simp [validationError?_eq_none.mpr hnil] at he
    rw [he] at hreport
    have hviolations : e.violations = m.broken.map BrokenRule.violation := hreport
    have hfields : (e.violations.map Violation.field).Nodup := by
      rw [hviolations, List.map_map]
      exact m.nodup_fields_broken
    exact .inr ⟨e, m.broken, rfl, hbroken, m.nodup_broken, fun _ => mem_broken,
      hviolations, hfields⟩

end Provision
