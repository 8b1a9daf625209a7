import Provision.Proofs.Creation.Attempt
import Provision.Proofs.Files.Walk
import Provision.Proofs.NameGrammar
import Provision.Proofs.SecretReading

/-!
Which directories are read for secrets. Whatever is asked for, it lies two steps below the root or
one, as the names say; what is found is what lies there, whatever else is on the disk; and the
machines that are accepted ask for nothing else.
-/
namespace Provision

open Timed (exec)

namespace Path

/-- A component of a path: a name that leads one step down. -/
structure IsComponent (s : String) : Prop where
  isName : IsName s
  slash : '/' ∉ s.toList
  backslash : '\\' ∉ s.toList
  zero : '\x00' ∉ s.toList

variable {s : String}

theorem isPlain_iff : isPlain s = true ↔ IsComponent s := by
  have hzero (c : Char) : c.toNat = 0 ↔ c = '\x00' :=
    ⟨fun h => Char.ext (UInt32.toNat_inj.mp h), fun h => h ▸ rfl⟩
  have hmem (d : Char) : (∀ c ∈ s.toList, c ≠ d) ↔ d ∉ s.toList :=
    ⟨fun h hd => h d hd rfl, fun h c hc he => h (he ▸ hc)⟩
  have hchars : s.toList.all (fun c => c ≠ '/' && c ≠ '\\' && c.toNat ≠ 0) = true ↔
      '/' ∉ s.toList ∧ '\\' ∉ s.toList ∧ '\x00' ∉ s.toList := by
    simp only [← hmem, List.all_eq_true, Bool.and_eq_true, decide_eq_true_eq, ne_eq, hzero,
      forall_and, and_assoc]
  rw [isPlain, Bool.and_eq_true, hchars]
  simp only [Bool.and_eq_true, decide_eq_true_eq]
  constructor
  · rintro ⟨⟨⟨hempty, hdot⟩, hdots⟩, hslash, hbackslash, hzero⟩
    exact ⟨⟨hempty, hdot, hdots⟩, hslash, hbackslash, hzero⟩
  · rintro ⟨⟨hempty, hdot, hdots⟩, hslash, hbackslash, hzero⟩
    exact ⟨⟨⟨hempty, hdot⟩, hdots⟩, hslash, hbackslash, hzero⟩

theorem IsComponent.names_eq (h : IsComponent s) : names s = [s] := names_of_notMem h.slash

theorem IsComponent.components_eq (h : IsComponent s) : components s = [s] := by
  simp [components, h.names_eq, h.isName.1, h.isName.2.1]

/-- What a file can be called: a name without slashes and zeros. -/
structure IsFileName (s : String) : Prop where
  isName : IsName s
  slash : '/' ∉ s.toList
  zero : '\x00' ∉ s.toList

theorem IsComponent.isFileName (h : IsComponent s) : IsFileName s := ⟨h.isName, h.slash, h.zero⟩

theorem isAbsolute_of_notMem (h : '/' ∉ s.toList) : isAbsolute s = false := by
  unfold isAbsolute
  cases hs : s.toList with
  | nil => rfl
  | cons c cs => simpa [hs, eq_comm] using (not_or.mp (mt List.mem_cons.mpr (hs ▸ h))).1

end Path

namespace SecretStore

open Provision.Path (IsComponent IsFileName IsName)

/-- What the names of a secret say of its place below the root. -/
def below (ns name : String) : List String := (if ns = "" then [] else [ns]) ++ [name]

variable {root ns name : String}

theorem isReference_iff :
    isReference ns name = true ↔ (ns = "" ∨ IsComponent ns) ∧ IsComponent name := by
  simp [isReference, Path.isPlain_iff]

theorem isAbsolute_ns (hns : ns = "" ∨ IsComponent ns) : Path.isAbsolute ns = false := by
  obtain rfl | hns := hns
  · rfl
  · exact Path.isAbsolute_of_notMem hns.slash

theorem components_path (hns : ns = "" ∨ IsComponent ns) (hname : IsComponent name) :
    Path.components (path root ns name) = Path.components root ++ below ns name := by
  rw [path, Path.components_join (Path.isAbsolute_of_notMem hname.slash),
    Path.components_join (isAbsolute_ns hns),
    hname.components_eq, below, List.append_assoc]
  obtain rfl | hns := hns
  · rfl
  · rw [hns.components_eq, if_neg hns.isName.1]

theorem isAbsolute_path (hns : ns = "" ∨ IsComponent ns) (hname : IsComponent name) :
    Path.isAbsolute (path root ns name) = Path.isAbsolute root := by
  rw [path, Path.isAbsolute_join (Path.isAbsolute_of_notMem hname.slash),
    Path.isAbsolute_join (isAbsolute_ns hns)]

section Places

variable {t t' : Tree} {base : Location}

theorem below_ne_nil : below ns name ≠ [] :=
  List.append_ne_nil_of_right_ne_nil _ (List.cons_ne_nil _ _)

theorem isName_of_mem_below (hns : ns = "" ∨ IsComponent ns) (hname : IsComponent name) :
    ∀ n ∈ below ns name, IsName n := by
  intro n hn
  obtain hn | hn := List.mem_append.mp hn
  · split at hn
    · cases hn
    next hne =>
      obtain rfl := List.mem_singleton.mp hn
      exact (hns.resolve_left hne).isName
  · obtain rfl := List.mem_singleton.mp hn
    exact hname.isName

/-- Where the root leads, the directory of a secret is looked for below it. -/
theorem through_path {left : Nat}
    (hlead : t.Leads Tree.maxLinks (Tree.origin t.home root) (Path.names root) left base)
    (hns : ns = "" ∨ IsComponent ns) (hname : IsComponent name) :
    t.Through (path root ns name) base (below ns name) := by
  have horigin : Tree.origin t.home (path root ns name) = Tree.origin t.home root := by
    rw [Tree.origin, isAbsolute_path hns hname, Tree.origin]
  obtain ⟨front, hnames, hfront⟩ := Path.names_join root (isAbsolute_ns hns)
  obtain ⟨front', hnames', hfront'⟩ :=
    Path.names_join (Path.join root ns) (Path.isAbsolute_of_notMem hname.slash)
  have hbase : ∃ left, t.Leads Tree.maxLinks (Tree.origin t.home root) front left base := by
    obtain hfront | hfront := hfront
    · exact ⟨left, hfront ▸ hlead⟩
    · exact (hfront ▸ hlead).of_slash
  obtain ⟨left, hlead⟩ := hbase
  rw [Tree.Through, horigin, path, hnames', hname.names_eq, below]
  rw [hnames] at hfront'
  obtain rfl | hns := hns
  · refine ⟨front', left, rfl, ?_⟩
    have hempty : Path.names "" = [""] := rfl
    rw [hempty] at hfront'
    obtain hfront' | hfront' := hfront'
    · rw [← hfront']
      exact Tree.leads_append.mpr ⟨left, base, hlead, .stay (.inl rfl) (.nil left base)⟩
    · rwa [← List.append_cancel_right hfront']
  · rw [hns.names_eq] at hfront'
    refine ⟨front, left, ?_, hlead⟩
    rw [if_neg hns.isName.1, ← List.append_assoc]
    obtain hfront' | hfront' := hfront'
    · rw [hfront']
    · exact absurd (List.append_inj' hfront' rfl).2 (by simpa using hns.isName.1)

theorem through_of_resolve (hroot : t.resolve .content root = .ok (.node base .directory))
    (hns : ns = "" ∨ IsComponent ns) (hname : IsComponent name) :
    t.Through (path root ns name) base (below ns name) := by
  rw [(Tree.isProper_of_resolve hroot).resolve] at hroot
  obtain ⟨left, hlead⟩ := Tree.exists_leads_of_directory hroot
  exact through_path hlead hns hname

/-- An entry of a secret is looked for in the directory of the secret. -/
theorem through_entry (h : t.Through (path root ns name) base (below ns name))
    (hname : IsComponent name) {n : String} (hn : IsFileName n) :
    t.Through (Path.join (path root ns name) n) base (below ns name ++ [n]) := by
  have hrelative := Path.isAbsolute_of_notMem hn.slash
  have horigin : Tree.origin t.home (Path.join (path root ns name) n) =
      Tree.origin t.home (path root ns name) := by
    rw [Tree.origin, Path.isAbsolute_join hrelative, Tree.origin]
  obtain ⟨front, left, hnames, hlead⟩ := h
  obtain ⟨front', hnames', hfront'⟩ := Path.names_join (path root ns name) hrelative
  refine ⟨front, left, ?_, horigin ▸ hlead⟩
  rw [hnames', Path.names_of_notMem hn.slash, ← List.append_assoc, ← hnames]
  -- The path ends in a name, so that no slash is at its end.
  refine congrArg (· ++ [n]) (hfront'.resolve_right fun hslash => ?_).symm
  rw [hnames, below, ← List.append_assoc] at hslash
  exact hname.isName.1 (List.singleton_inj.mp (List.append_inj' hslash rfl).2)

/-- Where no link is on the way, it is where the names say. -/
theorem place_of_resolve (hns : ns = "" ∨ IsComponent ns) (hname : IsComponent name)
    (hroot : t.resolve .content root = .ok (.node base .directory))
    (hlinks : t.Unlinked base (below ns name)) {target : Target}
    (h : t.resolve .content (path root ns name) = .ok target) :
    target.place = base ++ below ns name := by
  have hthrough := through_of_resolve hroot hns hname
  rw [hthrough.eq_there (isName_of_mem_below hns hname) hlinks below_ne_nil h, Tree.place_there]

/-- What is not hidden in a directory has the name of a file and is no link. -/
def IsPlain (t : Tree) (l : Location) : Prop :=
  ∀ n ∈ t.namesIn l, isHiddenName n = false →
    IsFileName n ∧ ∀ text, t.find? (l ++ [n]) ≠ some (.link text)

/-- Two trees have the same on a way down and in the directory there, in which they list the same
names. What is hidden there may differ. -/
structure Alike (t t' : Tree) (base : Location) (way : List String) : Prop where
  same : ∀ p, p <+: way → t'.find? (base ++ p) = t.find? (base ++ p)
  listed : t'.namesIn (base ++ way) = t.namesIn (base ++ way)
  inside : ∀ n ∈ t.namesIn (base ++ way), isHiddenName n = false →
    t'.find? (base ++ way ++ [n]) = t.find? (base ++ way ++ [n])

section Directory

variable (hns : ns = "" ∨ IsComponent ns) (hname : IsComponent name)
  (hroot : t.resolve .content root = .ok (.node base .directory))
  (hlinks : t.Unlinked base (below ns name))

include hns hname hroot hlinks

theorem eq_namesIn_of_list {names : List String} (h : t.list (path root ns name) = .ok names) :
    names = t.namesIn (base ++ below ns name) := by
  unfold Tree.list at h
  split at h
  next l hok =>
    obtain rfl : l = base ++ below ns name := place_of_resolve hns hname hroot hlinks hok
    exact (Except.ok.inj h).symm
  all_goals cases h

variable (hplain : IsPlain t (base ++ below ns name))

include hplain

/-- A visible entry, and how it is come to. -/
theorem way_entry {n : String} (hn : n ∈ t.namesIn (base ++ below ns name))
    (hvisible : isHiddenName n = false) :
    t.Through (Path.join (path root ns name) n) base (below ns name ++ [n]) ∧
      (∀ n' ∈ below ns name ++ [n], IsName n') ∧ t.Unlinked base (below ns name ++ [n]) := by
  obtain ⟨hfile, hlink⟩ := hplain n hn hvisible
  refine ⟨through_entry (through_of_resolve hroot hns hname) hname hfile, ?_, fun p hp => ?_⟩
  · simpa [or_imp, forall_and] using ⟨isName_of_mem_below hns hname, hfile.isName⟩
  · obtain rfl | hp := List.prefix_concat_iff.mp hp
    · simpa only [List.append_assoc] using hlink
    · exact hlinks p hp

/-- What a visible name leads to is what is there. -/
theorem find?_of_node {n : String} (hn : n ∈ t.namesIn (base ++ below ns name))
    (hvisible : isHiddenName n = false) {node : Node}
    (h : t.node (Path.join (path root ns name) n) = .ok node) :
    t.find? (base ++ below ns name ++ [n]) = some node := by
  obtain ⟨hthrough, hnames, hunlinked⟩ := way_entry hns hname hroot hlinks hplain hn hvisible
  unfold Tree.node at h
  split at h
  next l n' hok =>
    obtain rfl := Except.ok.inj h
    have hthere := hthrough.eq_there hnames hunlinked (by simp) hok
    rw [List.append_assoc]
    exact (Tree.there_eq_node_iff.mp hthere.symm).2
  all_goals cases h

/-- The entries that are found are the visible files in the directory of the secret. -/
theorem find?_readSecret {s : Secret} (h : readSecret t (path root ns name) ns name = .ok s)
    (key : String) (value : Bytes) :
    s.find? key = some value ↔
      isHiddenName key = false ∧ t.find? (base ++ below ns name ++ [key]) = some (.file value) := by
  have hreading := reading_readSecret t (path root ns name) ns name
  rw [h] at hreading
  obtain ⟨hlist, hnodes, hfind⟩ := hreading
  obtain rfl := eq_namesIn_of_list hns hname hroot hlinks hlist
  have hthere {n : String} (hn : n ∈ t.namesIn (base ++ below ns name))
      (hvisible : isHiddenName n = false) {node : Node}
      (hnode : t.node (Path.join (path root ns name) n) = .ok node) :=
    find?_of_node hns hname hroot hlinks hplain hn hvisible hnode
  rw [hfind]
  constructor
  · rintro ⟨hkey, hvisible, hnode⟩
    exact ⟨hvisible, hthere hkey hvisible hnode⟩
  · rintro ⟨hvisible, hfile⟩
    have hkey : key ∈ t.namesIn (base ++ below ns name) :=
      Tree.mem_namesIn.mpr fun hnone => nomatch hnone.symm.trans hfile
    obtain ⟨node, hnode⟩ := hnodes key hkey hvisible
    obtain rfl := Option.some.inj ((hthere hkey hvisible hnode).symm.trans hfile)
    exact ⟨hkey, hvisible, hnode⟩

/-- What is read is the same on all disks that have the same in the directory of the secret and on
the way there. -/
theorem readSecret_eq_of_alike (hroot' : t'.resolve .content root = .ok (.node base .directory))
    (h : Alike t t' base (below ns name)) :
    readSecret t' (path root ns name) ns name = readSecret t (path root ns name) ns name := by
  have hresolve :
      t'.resolve .content (path root ns name) = t.resolve .content (path root ns name) :=
    (through_of_resolve hroot hns hname).resolve_congr (through_of_resolve hroot' hns hname)
      (isName_of_mem_below hns hname) hlinks below_ne_nil h.same
  refine readSecret_congr ?_ fun names hlist n hn hvisible => ?_
  · rw [Tree.list, Tree.list, hresolve]
    split
    next l hok =>
      obtain rfl : l = base ++ below ns name := place_of_resolve hns hname hroot hlinks hok
      rw [h.listed]
    all_goals rfl
  · obtain rfl := eq_namesIn_of_list hns hname hroot hlinks hlist
    obtain ⟨hthrough, hnames, hunlinked⟩ := way_entry hns hname hroot hlinks hplain hn hvisible
    have hthrough' :=
      through_entry (through_of_resolve hroot' hns hname) hname (hplain n hn hvisible).1
    have hsame : ∀ p, p <+: below ns name ++ [n] → t'.find? (base ++ p) = t.find? (base ++ p) := by
      intro p hp
      obtain rfl | hp := List.prefix_concat_iff.mp hp
      · simpa only [List.append_assoc] using h.inside n hn hvisible
      · exact h.same p hp
    rw [Tree.node, Tree.node, hthrough.resolve_congr hthrough' hnames hunlinked (by simp) hsame]

end Directory

end Places

section Lookups

theorem directory_of_reference (root : String) (h : isReference ns name = true)
    (u : Timeline Tree) :
    ∃ log, exec (directory root ns name) u =
      (.ok (readSecret u.world (path root ns name) ns name), { u with log := log }) := by
  unfold directory
  simp only [h, Bool.not_true, Bool.false_eq_true, if_false]
  exact ⟨_, rfl⟩

theorem directory_of_not_reference (h : ¬isReference ns name = true) :
    directory root ns name = pure (.error ⟨.invalidReference, ns, name⟩) := by
  unfold directory
  simp only [h, Bool.not_false, if_true]

/-- A look for a secret stays below the root. -/
structure Confined (root ns name : String) : Prop where
  /-- The path is that of the root with the names after it. -/
  components : Path.components (path root ns name) = Path.components root ++ below ns name
  isAbsolute : Path.isAbsolute (path root ns name) = Path.isAbsolute root
  /-- All that is done is to read the directory at that path. -/
  reading : ∀ u : Timeline Tree, ∃ r log,
    exec (directory root ns name) u = (.ok r, { u with log := log }) ∧
      Reading u.world (path root ns name) ns name r
  /-- Where no links are on the way, the path leads to the place that the names say. -/
  place : ∀ (t : Tree) (base : Location), t.resolve .content root = .ok (.node base .directory) →
    t.Unlinked base (below ns name) →
    ∀ target, t.resolve .content (path root ns name) = .ok target →
      target.place = base ++ below ns name
  /-- Where no links are in that directory either, the entries found are its visible files. -/
  found : ∀ (u : Timeline Tree) (base : Location),
    u.world.resolve .content root = .ok (.node base .directory) →
    u.world.Unlinked base (below ns name) → IsPlain u.world (base ++ below ns name) →
    ∀ s, (exec (directory root ns name) u).1 = .ok (.ok s) → ∀ key value,
      s.find? key = some value ↔ isHiddenName key = false ∧
        u.world.find? (base ++ below ns name ++ [key]) = some (.file value)
  /-- And whatever else differs on the disk, the answer is the same. -/
  apart : ∀ (u u' : Timeline Tree) (base : Location),
    u.world.resolve .content root = .ok (.node base .directory) →
    u'.world.resolve .content root = .ok (.node base .directory) →
    u.world.Unlinked base (below ns name) → IsPlain u.world (base ++ below ns name) →
    Alike u.world u'.world base (below ns name) →
      (exec (directory root ns name) u').1 = (exec (directory root ns name) u).1

theorem confined (root : String) (hns : ns = "" ∨ IsComponent ns) (hname : IsComponent name) :
    Confined root ns name := by
  have hrun := directory_of_reference root (isReference_iff.mpr ⟨hns, hname⟩)
  have hanswer (u : Timeline Tree) :
      (exec (directory root ns name) u).1 =
        .ok (readSecret u.world (path root ns name) ns name) := by
    obtain ⟨log, hu⟩ := hrun u
    rw [hu]
  exact {
    components := components_path hns hname
    isAbsolute := isAbsolute_path hns hname
    reading := fun u => by
      obtain ⟨log, hu⟩ := hrun u
      exact ⟨_, log, hu, reading_readSecret ..⟩
    place := fun t base hroot hlinks target h => place_of_resolve hns hname hroot hlinks h
    found := fun u base hroot hlinks hplain s hs => by
      rw [hanswer] at hs
      exact find?_readSecret hns hname hroot hlinks hplain (Except.ok.inj hs)
    apart := fun u u' base hroot hroot' hlinks hplain h => by
      rw [hanswer, hanswer, readSecret_eq_of_alike hns hname hroot hlinks hplain hroot' h] }

end Lookups

end SecretStore

open Provision.Path (IsComponent)

theorem IsLabel.isComponent {s : String} (h : IsLabel s) : IsComponent s := by
  have hnone (c : Char) (hc : c ∈ ['/', '.', '\\', '\x00']) : c ∉ s.toList :=
    fun hmem => (ascii_of_mem_labels (mem_labels.mpr h) hmem).2 hc
  refine ⟨⟨h.nonempty, ?_, ?_⟩, hnone '/' (by simp), hnone '\\' (by simp), hnone '\x00' (by simp)⟩
  all_goals
    rintro rfl
    exact hnone '.' (by simp) (by decide)

theorem Machine.isReference_of_accepted {m : Machine} (h : m.validationError? = none)
    {name : String} (hname : m.spec.userDataSecret = some name) :
    SecretStore.isReference m.ns name = true := by
  have hvalid := Machine.broken_eq_nil.mp (Machine.validationError?_eq_none.mp h)
  exact SecretStore.isReference_iff.mpr
    ⟨hvalid.ns.imp_right IsLabel.isComponent, (hvalid.secret name hname).isComponent⟩

namespace Collaborators

variable {σ τ : Type} {c : Collaborators σ τ} {s : Scope}

theorem create_congr {g h : SecretStore τ}
    (hgh : s.machine.validationError? = none → ∀ name, s.machine.spec.userDataSecret = some name →
      g s.machine.ns name = h s.machine.ns name) :
    { c with secrets := g }.create s = { c with secrets := h }.create s := by
  have hattempt : { c with secrets := g }.attempt s = { c with secrets := h }.attempt s := by
    unfold attempt
    split
    · rfl
    next hvalid =>
      have hdata : { c with secrets := g }.userData s = { c with secrets := h }.userData s := by
        unfold userData
        split
        · rfl
        next name hname => simp only [secret, hgh hvalid name hname]
      unfold insertAndWait
      rw [hdata]
      rfl
  unfold create
  rw [hattempt]
  rfl

end Collaborators

/-- A secret is refused unread, or its names are components, and all that is read is the directory
of these names below the root. What is asked for in the making of an instance is the one secret that
an accepted machine names, and it is not refused. -/
theorem secret_lookups_confined :
    (∀ root ns name : String,
      (SecretStore.directory root ns name = pure (.error ⟨.invalidReference, ns, name⟩) ∧
          ¬((ns = "" ∨ IsComponent ns) ∧ IsComponent name)) ∨
        ((ns = "" ∨ IsComponent ns) ∧ IsComponent name ∧ SecretStore.Confined root ns name)) ∧
      (∀ (m : Machine) (name : String), m.validationError? = none →
        m.spec.userDataSecret = some name → ∀ root u, ∃ r,
          (exec (SecretStore.directory root m.ns name) u).1 = .ok r ∧
          ∀ e, r = .error e → e.fault ≠ .invalidReference) ∧
      ∀ (σ τ : Type) (c : Collaborators σ τ) (s : Scope) (g h : SecretStore τ),
        (s.machine.validationError? = none → ∀ name, s.machine.spec.userDataSecret = some name →
          g s.machine.ns name = h s.machine.ns name) →
        { c with secrets := g }.create s = { c with secrets := h }.create s := by
  refine ⟨fun root ns name => ?_, fun m name hm hname root u => ?_,
    fun _ _ _ _ _ _ => Collaborators.create_congr⟩
  · by_cases h : SecretStore.isReference ns name = true
    · obtain ⟨hns, hname⟩ := SecretStore.isReference_iff.mp h
      exact .inr ⟨hns, hname, SecretStore.confined root hns hname⟩
    · exact .inl ⟨SecretStore.directory_of_not_reference h, mt SecretStore.isReference_iff.mpr h⟩
  · obtain ⟨log, hrun⟩ :=
      SecretStore.directory_of_reference root (Machine.isReference_of_accepted hm hname) u
    refine ⟨_, congrArg Prod.fst hrun, fun e he => ?_⟩
    have hreading :=
      SecretStore.reading_readSecret u.world (SecretStore.path root m.ns name) m.ns name
    rw [he] at hreading
    exact hreading.ne_invalidReference

/-- The small machine, with a secret. -/
def Machine.initialized : Machine :=
  { small with spec := { small.spec with userDataSecret := some "worker-user-data" } }

/-- The entries of a secret as files, with a hidden file, a hidden link and a directory beside them,
and a namespace without secrets. -/
def Tree.mounted : Tree where
  home := []
  entries := [
    (["secrets"], .directory),
    (["secrets", "default"], .directory),
    (["secrets", "machines"], .directory),
    (["secrets", "machines", "worker-user-data"], .directory),
    (["secrets", "machines", "worker-user-data", "..data"], .link "gone"),
    (["secrets", "machines", "worker-user-data", "userData"], .file [105, 103, 110]),
    (["secrets", "machines", "worker-user-data", "old"], .directory),
    (["secrets", "machines", "worker-user-data", "network"], .file []),
    (["secrets", "machines", "worker-user-data", ".hidden"], .file [0])]

section Mounted

open SecretStore (below path isHiddenName)

theorem Tree.resolve_secrets {t : Tree} (hhome : t.home = [])
    (h : t.find? ["secrets"] = some .directory) :
    t.resolve .content "secrets" = .ok (.node ["secrets"] .directory) := by
  have horigin : origin t.home "secrets" = [] := by simp [origin, hhome]
  have hnames : Path.names "secrets" = ["secrets"] := by decide +kernel
  have hlead : t.Leads maxLinks [] ["secrets"] maxLinks ["secrets"] :=
    leads_of_directories (by decide +kernel) (by simpa using h)
  rw [IsProper.resolve (by decide +kernel), horigin, hnames, hlead.walk_eq]

/-- The way to the secret is one of directories. -/
theorem Tree.find?_mounted : ∀ p, p <+: below "machines" "worker-user-data" →
    mounted.find? (["secrets"] ++ p) = some .directory := by
  have hdirs : ∀ p ∈ (below "machines" "worker-user-data").inits,
      mounted.find? (["secrets"] ++ p) = some .directory := by decide +kernel
  exact fun p hp => hdirs p ((List.mem_inits ..).mpr hp)

theorem Tree.unlinked_mounted :
    mounted.Unlinked ["secrets"] (below "machines" "worker-user-data") :=
  fun p hp _ hlink => nomatch (find?_mounted p hp).symm.trans hlink

theorem SecretStore.isPlain_mounted :
    IsPlain .mounted (["secrets"] ++ below "machines" "worker-user-data") := by
  have hvisible : ∀ n ∈ Tree.mounted.namesIn (["secrets"] ++ below "machines" "worker-user-data"),
      isHiddenName n = false → Path.isPlain n = true ∧
        Tree.mounted.find? (["secrets"] ++ below "machines" "worker-user-data" ++ [n]) ∈
          [some .directory, some (.file [105, 103, 110]), some (.file [])] := by decide +kernel
  intro n hn hhidden
  obtain ⟨hplain, hfind⟩ := hvisible n hn hhidden
  refine ⟨(Path.isPlain_iff.mp hplain).isFileName, fun text hlink => ?_⟩
  rw [hlink] at hfind
  simp at hfind

theorem SecretStore.exists_readSecret_mounted :
    ∃ s, readSecret .mounted (path "secrets" "machines" "worker-user-data")
      "machines" "worker-user-data" = .ok s := by
  have horigin : Tree.origin Tree.mounted.home "secrets/machines/worker-user-data" = [] := by
    decide +kernel
  have hpath : path "secrets" "machines" "worker-user-data" =
      "secrets/machines/worker-user-data" := by decide +kernel
  have hnames : Path.names "secrets/machines/worker-user-data" =
      ["secrets", "machines", "worker-user-data"] := by decide +kernel
  have hlead : Tree.mounted.Leads Tree.maxLinks [] ["secrets", "machines", "worker-user-data"]
      Tree.maxLinks ["secrets", "machines", "worker-user-data"] :=
    Tree.leads_of_directories (by decide +kernel) (by decide +kernel)
  have hlist : Tree.mounted.list "secrets/machines/worker-user-data" =
      .ok (Tree.mounted.namesIn ["secrets", "machines", "worker-user-data"]) := by
    rw [Tree.list, Tree.IsProper.resolve (by decide +kernel), horigin, hnames, hlead.walk_eq]
  have hentry : ∀ n ∈ Tree.mounted.namesIn ["secrets", "machines", "worker-user-data"],
      Tree.IsProper (Path.join "secrets/machines/worker-user-data" n) ∧ Path.isPlain n = true ∧
        n.utf8ByteSize ≤ Tree.maxName ∧
        Tree.origin Tree.mounted.home (Path.join "secrets/machines/worker-user-data" n) = [] ∧
        Path.names (Path.join "secrets/machines/worker-user-data" n) =
          ["secrets", "machines", "worker-user-data"] ++ [n] := by decide +kernel
  have hnodes : ∀ n ∈ Tree.mounted.namesIn ["secrets", "machines", "worker-user-data"],
      isHiddenName n = false →
      ∃ node, Tree.mounted.node (Path.join "secrets/machines/worker-user-data" n) = .ok node := by
    intro n hn hvisible
    obtain ⟨hproper, hplain, hsize, horigin, hnames⟩ := hentry n hn
    obtain ⟨node, hnode⟩ := Option.ne_none_iff_exists'.mp (Tree.mem_namesIn.mp hn)
    have hends : Tree.mounted.EndsIn (Path.join "secrets/machines/worker-user-data" n)
        ["secrets", "machines", "worker-user-data"] n := by
      refine ⟨hproper, (Path.isPlain_iff.mp hplain).isName, hsize, _, Tree.maxLinks, hnames, ?_⟩
      rw [horigin]
      exact hlead
    refine ⟨node, hends.node hnode fun text htext => ?_⟩
    exact (isPlain_mounted n hn hvisible).2 text (htext ▸ hnode)
  obtain ⟨s, hread, -⟩ := readEntries_eq hnodes ∅
  exact ⟨s, by simp only [hpath, readSecret, hlist, hread]⟩

theorem secret_lookups_confined_initialized :
    SecretStore.directory "secrets" "machines" "../../outside" =
        pure (.error ⟨.invalidReference, "machines", "../../outside"⟩) ∧
      Path.components (path "secrets" "machines" "worker-user-data") =
        ["secrets", "machines", "worker-user-data"] ∧
      (∃ s, (exec (SecretStore.directory "secrets" "machines" "worker-user-data")
          ⟨.start, #[], .mounted⟩).1 = .ok (.ok s) ∧
        s.find? "userData" = some [105, 103, 110] ∧ s.find? ".hidden" = none ∧
        ∀ content, (exec (SecretStore.directory "secrets" "machines" "worker-user-data")
          ⟨.start, #[], Tree.mounted.put ["secrets", "userData"] (.file content)⟩).1 =
            .ok (.ok s)) ∧
      Machine.initialized.validationError? = none ∧
      Machine.initialized.spec.userDataSecret = some "worker-user-data" ∧
      ∃ r, (exec (SecretStore.directory "secrets" "default" "worker-user-data")
          ⟨.start, #[], Tree.empty⟩).1 = .ok r ∧
        ∀ e, r = .error e → e.fault ≠ .invalidReference := by
  obtain ⟨hconfined, haccepted, -⟩ := secret_lookups_confined
  have hvalid : Machine.initialized.validationError? = none := by decide +kernel
  have hns : SecretStore.isReference "machines" "worker-user-data" = true := by decide +kernel
  have hmounted : SecretStore.Confined "secrets" "machines" "worker-user-data" := by
    obtain ⟨-, hbad⟩ | ⟨-, -, hconfined⟩ := hconfined "secrets" "machines" "worker-user-data"
    · exact absurd (SecretStore.isReference_iff.mp hns) hbad
    · exact hconfined
  have hroot : Tree.mounted.resolve .content "secrets" = .ok (.node ["secrets"] .directory) :=
    Tree.resolve_secrets rfl rfl
  refine ⟨?_, ?_, ?_, hvalid, rfl, haccepted .initialized _ hvalid rfl "secrets" _⟩
  · obtain ⟨hrefused, -⟩ | ⟨-, hname, -⟩ := hconfined "secrets" "machines" "../../outside"
    · exact hrefused
    · exact absurd (Path.isPlain_iff.mpr hname) (by decide +kernel)
  · rw [hmounted.components]
    decide +kernel
  · obtain ⟨s, hs⟩ := SecretStore.exists_readSecret_mounted
    obtain ⟨log, hrun⟩ := SecretStore.directory_of_reference "secrets" hns ⟨.start, #[], .mounted⟩
    have hanswer := (congrArg Prod.fst hrun).trans (congrArg Except.ok hs)
    have hfound :=
      hmounted.found _ _ hroot Tree.unlinked_mounted SecretStore.isPlain_mounted s hanswer
    refine ⟨s, hanswer, (hfound _ _).mpr (by decide +kernel), ?_, fun content => ?_⟩
    · refine Option.eq_none_iff_forall_ne_some.mpr fun value hvalue => ?_
      exact absurd ((hfound _ _).mp hvalue).1 (by decide +kernel)
    · have hput (l : Location) (hl : l ≠ ["secrets", "userData"]) :
          (Tree.mounted.put ["secrets", "userData"] (.file content)).find? l =
            Tree.mounted.find? l := by
        rw [Tree.find?_put, if_neg hl]
      have hroot' := Tree.resolve_secrets
        (t := Tree.mounted.put ["secrets", "userData"] (.file content)) rfl (hput _ (by decide))
      have halike : SecretStore.Alike .mounted
          (Tree.mounted.put ["secrets", "userData"] (.file content)) ["secrets"]
          (below "machines" "worker-user-data") := by
        refine ⟨fun p hp => hput _ ?_, rfl, fun n _ _ => hput _ (by simp [below])⟩
        intro he
        cases (Tree.find?_mounted p hp).symm.trans (he ▸ rfl : _ = none)
      have hsame := hmounted.apart ⟨.start, #[], .mounted⟩ ⟨.start, #[], _⟩ _ hroot hroot'
        Tree.unlinked_mounted SecretStore.isPlain_mounted halike
      exact hsame.trans hanswer

end Mounted

end Provision
