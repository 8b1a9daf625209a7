import Provision.Proofs.Confinement
import Provision.Proofs.SecretReading

/-!
Secrets as files and secrets in memory. Where the entries of secrets lie as files below a root, in a
directory for each secret in one for each namespace, the secrets that are found there are those that
are found in memory when the entries were added there, in whatever order that was done and the
directories list their names.
-/
namespace Provision

/-- An entry of the secret of a name in a namespace. -/
structure SecretEntry where
  ns : String
  name : String
  key : String
  value : Bytes

namespace SecretTable

variable {es : List SecretEntry} {ns name key : String} {value : Bytes}

def addEntries (t : SecretTable) (es : List SecretEntry) : SecretTable :=
  es.foldl (fun t e => t.addEntry e.ns e.name e.key e.value) t

/-- The secrets of these entries, added in order. -/
def ofEntries (es : List SecretEntry) : SecretTable := addEntries ∅ es

theorem find?_addEntry (t : SecretTable) (e : SecretEntry) :
    (t.addEntry e.ns e.name e.key e.value).find? (ns, name) =
      if e.ns = ns ∧ e.name = name then some (((t.find? (ns, name)).getD ∅).insert e.key e.value)
      else t.find? (ns, name) := by
  rw [addEntry, Table.find?_insert]
  by_cases h : e.ns = ns ∧ e.name = name
  · obtain ⟨rfl, rfl⟩ := h
    simp
  · have hne : (ns, name) ≠ (e.ns, e.name) :=
      fun he => h ⟨(Prod.mk.inj he).1.symm, (Prod.mk.inj he).2.symm⟩
    rw [if_neg hne, if_neg h]

/-- A secret is there once it has an entry. -/
theorem find?_addEntries_eq_none (t : SecretTable) :
    (t.addEntries es).find? (ns, name) = none ↔ t.find? (ns, name) = none ∧
      ∀ e ∈ es, ¬(e.ns = ns ∧ e.name = name) := by
  induction es generalizing t with
  | nil => simp [addEntries]
  | cons e es ih =>
    rw [addEntries, List.foldl_cons, ← addEntries, ih, find?_addEntry]
    by_cases h : e.ns = ns ∧ e.name = name
    · simp [h]
    · rw [if_neg h, List.forall_mem_cons, and_iff_right h]

/-- What is found in a secret was there, or some entry put it there. -/
theorem mem_of_find?_addEntries (t : SecretTable)
    (h : (((t.addEntries es).find? (ns, name)).getD ∅).find? key = some value) :
    ⟨ns, name, key, value⟩ ∈ es ∨ ((t.find? (ns, name)).getD ∅).find? key = some value := by
  induction es generalizing t with
  | nil => exact .inr h
  | cons e es ih =>
    obtain hmem | hfind := ih _ h
    · exact .inl (List.mem_cons_of_mem e hmem)
    · rw [find?_addEntry] at hfind
      split at hfind
      next heq =>
        rw [Option.getD_some, Dict.find?_insert] at hfind
        split at hfind
        next hkey =>
          obtain ⟨rfl, rfl⟩ := heq
          obtain rfl := hkey
          obtain rfl := Option.some.inj hfind
          exact .inl List.mem_cons_self
        · exact .inr hfind
      · exact .inr hfind

/-- Something is found where it was, and where an entry put it. -/
theorem find?_addEntries_ne_none (t : SecretTable)
    (h : (∃ value, ⟨ns, name, key, value⟩ ∈ es) ∨ ((t.find? (ns, name)).getD ∅).find? key ≠ none) :
    (((t.addEntries es).find? (ns, name)).getD ∅).find? key ≠ none := by
  induction es generalizing t with
  | nil => exact h.resolve_left (by simp)
  | cons e es ih =>
    refine ih _ ?_
    rw [find?_addEntry]
    obtain ⟨value, hmem⟩ | hfind := h
    · obtain rfl | hmem := List.mem_cons.mp hmem
      · exact .inr (by simp [Dict.find?_insert])
      · exact .inl ⟨value, hmem⟩
    · refine .inr ?_
      split
      · rw [Option.getD_some, Dict.find?_insert]
        split
        · simp
        · exact hfind
      · exact hfind

theorem find?_ofEntries_eq_none :
    (ofEntries es).find? (ns, name) = none ↔ ∀ e ∈ es, ¬(e.ns = ns ∧ e.name = name) := by
  simp [ofEntries, find?_addEntries_eq_none]

/-- Where entries do not contradict each other, a secret holds what its entries say. -/
theorem find?_ofEntries {s : Secret} (h : (ofEntries es).find? (ns, name) = some s)
    (hes : ∀ e ∈ es, ∀ e' ∈ es, e.ns = e'.ns → e.name = e'.name → e.key = e'.key →
      e.value = e'.value) :
    s.find? key = some value ↔ ⟨ns, name, key, value⟩ ∈ es := by
  have hgetD : ((ofEntries es).find? (ns, name)).getD ∅ = s := by rw [h, Option.getD_some]
  have hfrom {value : Bytes} (hfind : s.find? key = some value) : ⟨ns, name, key, value⟩ ∈ es :=
    (mem_of_find?_addEntries ∅ (hgetD.symm ▸ hfind)).resolve_right (by simp)
  refine ⟨hfrom, fun hmem => ?_⟩
  have hsome := find?_addEntries_ne_none ∅ (.inl ⟨value, hmem⟩)
  rw [← ofEntries, hgetD] at hsome
  obtain ⟨value', hfind⟩ := Option.ne_none_iff_exists'.mp hsome
  exact hfind.trans (congrArg some (hes _ (hfrom hfind) _ hmem rfl rfl rfl))

theorem get_ofEntries_of_not_exists (h : ¬∃ e ∈ es, e.ns = ns ∧ e.name = name) :
    (ofEntries es).get ns name = .error ⟨.notFound, ns, name⟩ := by
  rw [get, find?_ofEntries_eq_none.mpr fun e he hsame => h ⟨e, he, hsame⟩]

theorem exists_get_ofEntries (h : ∃ e ∈ es, e.ns = ns ∧ e.name = name)
    (hes : ∀ e ∈ es, ∀ e' ∈ es, e.ns = e'.ns → e.name = e'.name → e.key = e'.key →
      e.value = e'.value) :
    ∃ s, (ofEntries es).get ns name = .ok s ∧ ∀ key value, s.find? key = some value ↔
      ⟨ns, name, key, value⟩ ∈ es := by
  obtain ⟨s, hs⟩ : ∃ s, (ofEntries es).find? (ns, name) = some s := by
    refine Option.ne_none_iff_exists'.mp fun hnone => ?_
    obtain ⟨e, he, hsame⟩ := h
    exact find?_ofEntries_eq_none.mp hnone e he hsame
  exact ⟨s, by rw [get, hs], fun _ _ => find?_ofEntries hs hes⟩

end SecretTable

namespace Path

variable {dir name : String}

theorem mem_of_mem_join {c : Char} (h : c ∈ (join dir name).toList) :
    c ∈ dir.toList ∨ c = '/' ∨ c ∈ name.toList := by
  unfold join at h
  split at h
  · exact .inr (.inr h)
  split at h
  · rw [String.toList_append, List.mem_append] at h
    exact h.imp_right .inr
  · simpa [or_assoc] using h

theorem IsFileName.plain_join (hname : IsFileName name) (hdir : ∀ c ∈ dir.toList, c.toNat ≠ 0) :
    ∀ c ∈ (join dir name).toList, c.toNat ≠ 0 := by
  intro c hc hzero
  obtain hmem | rfl | hmem := mem_of_mem_join hc
  · exact hdir c hmem hzero
  · cases hzero
  · exact hname.zero ((Char.ext (UInt32.toNat_inj.mp hzero) : c = '\x00') ▸ hmem)

theorem IsFileName.join_ne_empty (hname : IsFileName name) : join dir name ≠ "" := by
  intro hempty
  obtain ⟨front, hnames, -⟩ := names_join dir (isAbsolute_of_notMem hname.slash)
  rw [hempty, names_of_notMem hname.slash] at hnames
  have hlast : [].concat "" = front.concat name :=
    (hnames : [""] = _).trans List.concat_eq_append.symm
  exact hname.isName.1 (List.concat_inj.mp hlast).2.symm

end Path

namespace Tree

/-- A path is short enough to be followed, and so is every name in it. -/
structure IsShort (path : String) : Prop where
  size : path.utf8ByteSize ≤ maxPath
  names : ∀ n ∈ Path.names path, n.utf8ByteSize ≤ maxName

instance (path : String) : Decidable (IsShort path) :=
  decidable_of_iff (path.utf8ByteSize ≤ maxPath ∧ ∀ n ∈ Path.names path, n.utf8ByteSize ≤ maxName)
    ⟨fun h => ⟨h.1, h.2⟩, fun h => ⟨h.size, h.names⟩⟩

variable {t : Tree} {l : Location} {name : String}

/-- A name in a directory to which a path leads. -/
theorem endsIn_join {dir : String}
    (hlead : ∃ left, t.Leads maxLinks (origin t.home dir) (Path.names dir) left l)
    (hdir : ∀ c ∈ dir.toList, c.toNat ≠ 0) (hname : Path.IsFileName name)
    (hshort : IsShort (Path.join dir name)) :
    t.EndsIn (Path.join dir name) l name := by
  have hrelative := Path.isAbsolute_of_notMem hname.slash
  have horigin : origin t.home (Path.join dir name) = origin t.home dir := by
    rw [origin, Path.isAbsolute_join hrelative, origin]
  obtain ⟨front, hnames, hfront⟩ := Path.names_join dir hrelative
  rw [Path.names_of_notMem hname.slash] at hnames
  have hfrontLeads : ∃ left, t.Leads maxLinks (origin t.home dir) front left l := by
    obtain ⟨left, hlead⟩ := hlead
    obtain hfront | hfront := hfront
    · exact ⟨left, hfront ▸ hlead⟩
    · exact (hfront ▸ hlead).of_slash
  obtain ⟨left, hlead⟩ := hfrontLeads
  exact ⟨⟨hname.plain_join hdir, hname.join_ne_empty, hshort.size⟩, hname.isName,
    hshort.names name (hnames ▸ List.mem_append_right _ List.mem_cons_self), front, left, hnames,
    horigin.symm ▸ hlead⟩

end Tree

namespace SecretStore

open Provision.Path (IsComponent IsFileName)

variable {t : Tree} {dir : String}

/-- The entries lie as files below the root, which leads to `base`. Besides them there may be other
directories for namespaces, and in the directories of secrets whatever has a hidden name, and
directories. All that is not hidden is short enough to be followed. -/
structure LaidOut (t : Tree) (root : String) (base : Location) (es : List SecretEntry) : Prop where
  plain : ∀ c ∈ root.toList, c.toNat ≠ 0
  leads : ∃ left, t.Leads Tree.maxLinks (Tree.origin t.home root) (Path.names root) left base
  component : ∀ e ∈ es, IsComponent e.ns ∧ IsComponent e.name ∧ IsComponent e.key ∧
    isHiddenName e.key = false
  short : ∀ e ∈ es, Tree.IsShort (Path.join (path root e.ns e.name) e.key)
  file : ∀ e ∈ es, t.find? (base ++ [e.ns, e.name, e.key]) = some (.file e.value)
  ns : ∀ ns, IsComponent ns →
    t.find? (base ++ [ns]) = some .directory ∨ t.find? (base ++ [ns]) = none ∧ ∀ e ∈ es, e.ns ≠ ns
  name : ∀ ns name, IsComponent ns → IsComponent name →
    t.find? (base ++ [ns, name]) = if ∃ e ∈ es, e.ns = ns ∧ e.name = name then
      some .directory else none
  other : ∀ ns name n node, t.find? (base ++ [ns, name, n]) = some node → isHiddenName n = false →
    (∃ e ∈ es, e.ns = ns ∧ e.name = name ∧ e.key = n) ∨
      node = .directory ∧ IsFileName n ∧ Tree.IsShort (Path.join (path root ns name) n)

namespace LaidOut

variable {root ns name : String} {base : Location} {es : List SecretEntry}

theorem value_eq (h : LaidOut t root base es) :
    ∀ e ∈ es, ∀ e' ∈ es, e.ns = e'.ns → e.name = e'.name → e.key = e'.key →
    e.value = e'.value := by
  intro e he e' he' hns hname hkey
  have hfile := h.file e he
  rw [hns, hname, hkey, h.file e' he'] at hfile
  exact (Node.file.inj (Option.some.inj hfile)).symm

section Reading

variable (h : LaidOut t root base es) (hns : IsComponent ns) (hname : IsComponent name)

include h hns hname

/-- The path of a secret is that of a directory for it in one for its namespace. -/
theorem through : t.Through (path root ns name) base [ns, name] := by
  obtain ⟨left, hlead⟩ := h.leads
  have hbelow := through_path hlead (.inr hns) hname
  rwa [below, if_neg hns.isName.1] at hbelow

variable (hshort : Tree.IsShort (path root ns name))

include hshort

theorem isProper : Tree.IsProper (path root ns name) :=
  ⟨hname.isFileName.plain_join (hns.isFileName.plain_join h.plain),
    hname.isFileName.join_ne_empty, hshort.size⟩

/-- A secret that has an entry has a directory. -/
theorem leads_path (hentry : ∃ e ∈ es, e.ns = ns ∧ e.name = name) :
    ∃ left, t.Leads Tree.maxLinks (Tree.origin t.home (path root ns name))
      (Path.names (path root ns name)) left
      (base ++ [ns, name]) := by
  obtain ⟨front, left, hnames, hlead⟩ := h.through hns hname
  have hdir : t.find? (base ++ [ns]) = some .directory := by
    refine (h.ns ns hns).resolve_right fun hnone => ?_
    obtain ⟨e, he, heq, -⟩ := hentry
    exact hnone.2 e he heq
  have hplace : base ++ [ns] ++ [name] = base ++ [ns, name] := List.append_assoc ..
  have hsecret : t.find? (base ++ [ns] ++ [name]) = some .directory := by
    rw [hplace, h.name ns name hns hname, if_pos hentry]
  refine ⟨left, hnames ▸ Tree.leads_append.mpr ⟨left, base, hlead, ?_⟩⟩
  exact .down hns.isName (hshort.names ns (by simp [hnames])) hdir <|
    .down hname.isName (hshort.names name (by simp [hnames])) hsecret (hplace ▸ .nil left _)

theorem list_path (hentry : ∃ e ∈ es, e.ns = ns ∧ e.name = name) :
    t.list (path root ns name) = .ok (t.namesIn (base ++ [ns, name])) := by
  obtain ⟨left, hlead⟩ := h.leads_path hns hname hshort hentry
  rw [Tree.list, (h.isProper hns hname hshort).resolve, hlead.walk_eq]

/-- One that has none has no directory, be there one for its namespace or not. -/
theorem list_path_of_not_exists (hentry : ¬∃ e ∈ es, e.ns = ns ∧ e.name = name) :
    t.list (path root ns name) = .error .absent := by
  obtain ⟨front, left, hnames, hlead⟩ := h.through hns hname
  rw [Tree.list, (h.isProper hns hname hshort).resolve, hnames,
    hlead.walk_append ⟨ns, by simp, hns.isName.1⟩,
    Tree.walk_name hns.isName (hshort.names ns (by simp [hnames])) (.inl (by decide))]
  obtain hdir | ⟨hnone, -⟩ := h.ns ns hns
  · rw [hdir]
    simp only
    rw [Tree.walk_name hname.isName (hshort.names name (by simp [hnames])) (.inl (by decide)),
      List.append_assoc,
      List.singleton_append, h.name ns name hns hname, if_neg hentry]
    simp only [if_true]
  · simp [hnone]

/-- What is not hidden in the directory of a secret can be looked at. -/
theorem exists_node (hentry : ∃ e ∈ es, e.ns = ns ∧ e.name = name) {n : String}
    (hn : n ∈ t.namesIn (base ++ [ns, name])) (hvisible : isHiddenName n = false) :
    ∃ node, t.find? (base ++ [ns, name, n]) = some node ∧
      t.node (Path.join (path root ns name) n) = .ok node := by
  have hplace : base ++ [ns, name] ++ [n] = base ++ [ns, name, n] := List.append_assoc ..
  rw [Tree.mem_namesIn, hplace] at hn
  obtain ⟨node, hnode⟩ := Option.ne_none_iff_exists'.mp hn
  have hlead := h.leads_path hns hname hshort hentry
  have hplain := (h.isProper hns hname hshort).plain
  refine ⟨node, hnode, ?_⟩
  obtain ⟨e, he, rfl, rfl, rfl⟩ | ⟨rfl, hfile, hlong⟩ := h.other ns name n node hnode hvisible
  · have hends := Tree.endsIn_join hlead hplain (h.component e he).2.2.1.isFileName (h.short e he)
    obtain rfl := Option.some.inj (hnode.symm.trans (h.file e he))
    exact hends.node (hplace ▸ hnode) nofun
  · exact (Tree.endsIn_join hlead hplain hfile hlong).node (hplace ▸ hnode) nofun

/-- The entries that are read from the directory of a secret are those of the secret. -/
theorem content?_eq_some_iff (hentry : ∃ e ∈ es, e.ns = ns ∧ e.name = name) {key : String}
    {value : Bytes} :
    key ∈ t.namesIn (base ++ [ns, name]) ∧ content? t (path root ns name) key = some value ↔
      ⟨ns, name, key, value⟩ ∈ es := by
  constructor
  · rintro ⟨hkey, hvalue⟩
    unfold content? at hvalue
    split at hvalue
    · cases hvalue
    next hvisible =>
      rw [Bool.not_eq_true] at hvisible
      obtain ⟨node, hfind, hnode⟩ := h.exists_node hns hname hshort hentry hkey hvisible
      rw [hnode] at hvalue
      obtain ⟨e, he, rfl, rfl, rfl⟩ | ⟨rfl, -⟩ := h.other ns name key node hfind hvisible
      · rw [h.file e he] at hfind
        obtain rfl := Option.some.inj hfind
        obtain rfl := Option.some.inj hvalue
        exact he
      · cases hvalue
  · intro he
    have hvisible := (h.component _ he).2.2.2
    have hkey : key ∈ t.namesIn (base ++ [ns, name]) := by
      rw [Tree.mem_namesIn, List.append_assoc]
      exact fun hnone => nomatch hnone.symm.trans (h.file _ he)
    obtain ⟨node, hfind, hnode⟩ := h.exists_node hns hname hshort hentry hkey hvisible
    obtain rfl := Option.some.inj (hfind.symm.trans (h.file _ he))
    exact ⟨hkey, by simp [content?, hvisible, hnode]⟩

/-- Whatever the order of the names is, what is read from them is just the entries of the secret. -/
theorem exists_readEntries (hentry : ∃ e ∈ es, e.ns = ns ∧ e.name = name) {names : List String}
    (hnames : names.Perm (t.namesIn (base ++ [ns, name]))) :
    ∃ s, readEntries t (path root ns name) ∅ names = .ok s ∧
      ∀ key value, s.find? key = some value ↔ ⟨ns, name, key, value⟩ ∈ es := by
  have hnodes : ∀ n ∈ names, isHiddenName n = false →
      ∃ node, t.node (Path.join (path root ns name) n) = .ok node := fun n hn hvisible =>
    (h.exists_node hns hname hshort hentry (hnames.mem_iff.mp hn) hvisible).imp fun _ => And.right
  obtain ⟨s, hread, hfind⟩ := readEntries_eq hnodes ∅
  refine ⟨s, hread, fun key value => ?_⟩
  rw [hfind, Dict.find?_empty, Option.or_none, Option.ite_none_right_eq_some, hnames.mem_iff,
    h.content?_eq_some_iff hns hname hshort hentry]

end Reading

end LaidOut

end SecretStore

open SecretStore (path)
open Provision.Path (IsComponent)
open Timed (exec)

/-- Where entries are laid out as files, the directory of a secret and the memory give the same
answer: the entries of the secret, or that there is none. It depends neither on the order in which a
directory lists its names nor on that in which the entries were added. -/
theorem secret_stores_agree {u : Timeline Tree} {root : String} {base : Location}
    {es : List SecretEntry} (h : SecretStore.LaidOut u.world root base es) {ns name : String}
    (hns : IsComponent ns) (hname : IsComponent name) (hshort : Tree.IsShort (path root ns name))
    {es' : List SecretEntry} (hes' : ∀ e, e ∈ es' ↔ e ∈ es) :
    (∃ log, exec (SecretStore.directory root ns name) u =
      (.ok ((SecretTable.ofEntries es').get ns name), { u with log := log })) ∧
    exec (SecretStore.memory (SecretTable.ofEntries es') ns name) u =
      (.ok ((SecretTable.ofEntries es').get ns name), u) ∧
    (∀ listed names, u.world.list (path root ns name) = .ok listed → names.Perm listed →
      SecretStore.readEntries u.world (path root ns name) ∅ names =
        SecretStore.readEntries u.world (path root ns name) ∅ listed) ∧
    if ∃ e ∈ es, e.ns = ns ∧ e.name = name then
      ∃ s, (SecretTable.ofEntries es').get ns name = .ok s ∧
        ∀ key value, s.find? key = some value ↔ ⟨ns, name, key, value⟩ ∈ es
    else (SecretTable.ofEntries es').get ns name = .error ⟨.notFound, ns, name⟩ := by
  have hrun :=
    SecretStore.directory_of_reference root (SecretStore.isReference_iff.mpr ⟨.inr hns, hname⟩) u
  by_cases hentry : ∃ e ∈ es, e.ns = ns ∧ e.name = name
  · have hentry' : ∃ e ∈ es', e.ns = ns ∧ e.name = name := by simpa only [hes'] using hentry
    obtain ⟨s, hget, hs⟩ := SecretTable.exists_get_ofEntries hentry' fun e he e' he' =>
      h.value_eq e ((hes' e).mp he) e' ((hes' e').mp he')
    simp only [hes'] at hs
    have hlist := h.list_path hns hname hshort hentry
    have hread {names : List String} (hnames : names.Perm (u.world.namesIn (base ++ [ns, name]))) :
        SecretStore.readEntries u.world (path root ns name) ∅ names = .ok s := by
      obtain ⟨s', hread, hs'⟩ := h.exists_readEntries hns hname hshort hentry hnames
      rw [hread, Dict.ext_find? fun key => Option.ext fun value =>
        (hs' key value).trans (hs key value).symm]
    refine ⟨?_, rfl, fun listed names hlisted hnames => ?_, ?_⟩
    · rw [SecretStore.readSecret, hlist] at hrun
      simpa only [hread (.refl _), hget] using hrun
    · obtain rfl := Except.ok.inj (hlist.symm.trans hlisted)
      rw [hread hnames, hread (.refl _)]
    · rw [if_pos hentry]
      exact ⟨s, hget, hs⟩
  · have hget : (SecretTable.ofEntries es').get ns name = .error ⟨.notFound, ns, name⟩ :=
      SecretTable.get_ofEntries_of_not_exists (by simpa only [hes'] using hentry)
    have hlist := h.list_path_of_not_exists hns hname hshort hentry
    refine ⟨?_, rfl, fun listed names hlisted hnames => ?_, ?_⟩
    · rw [SecretStore.readSecret, hlist] at hrun
      simpa only [hget] using hrun
    · cases hlist.symm.trans hlisted
    · rwa [if_neg hentry]

/-- Two entries of a secret. -/
def SecretEntry.mounted : List SecretEntry :=
  [⟨"machines", "worker-user-data", "userData", [105, 103, 110]⟩,
    ⟨"machines", "worker-user-data", "network", []⟩]

theorem SecretStore.LaidOut.mounted :
    LaidOut .mounted "secrets" ["secrets"] SecretEntry.mounted where
  plain := by simp
  leads := by
    have horigin : Tree.origin Tree.mounted.home "secrets" = [] := by decide +kernel
    have hnames : Path.names "secrets" = ["secrets"] := by decide +kernel
    rw [horigin, hnames]
    exact ⟨_, .down (by decide) (by decide +kernel) rfl (.nil _ _)⟩
  component := by
    have hplain : ∀ e ∈ SecretEntry.mounted, Path.isPlain e.ns = true ∧ Path.isPlain e.name = true ∧
        Path.isPlain e.key = true ∧ isHiddenName e.key = false := by decide +kernel
    simpa only [Path.isPlain_iff] using hplain
  short := by decide +kernel
  file := by decide +kernel
  ns ns _ := by
    by_cases hdir : ns = "machines" ∨ ns = "default"
    · refine .inl ?_
      obtain rfl | rfl := hdir <;> rfl
    · obtain ⟨hmachines, hdefault⟩ := not_or.mp hdir
      exact .inr ⟨by simp [Tree.find?, Tree.mounted, hmachines, hdefault],
        by simp [SecretEntry.mounted, hmachines, eq_comm]⟩
  name ns name _ _ := by
    by_cases hdir : "machines" = ns ∧ "worker-user-data" = name
    · obtain ⟨rfl, rfl⟩ := hdir
      rw [if_pos (by decide +kernel)]
      rfl
    · rw [if_neg (by simpa [SecretEntry.mounted] using hdir)]
      have hnot : ns = "machines" → ¬name = "worker-user-data" :=
        fun hns hname => hdir ⟨hns.symm, hname.symm⟩
      simpa [Tree.find?, List.lookup_eq_none_iff, Tree.mounted] using hnot
  other ns name n node hfind hvisible := by
    obtain ⟨before, after, hentries, -⟩ := List.lookup_eq_some_iff.mp hfind
    have hmem : (["secrets"] ++ [ns, name, n], node) ∈ Tree.mounted.entries := by simp [hentries]
    simp only [Tree.mounted, List.cons_append, List.nil_append, List.mem_cons, Prod.mk.injEq,
      List.cons.injEq, and_true,
      true_and, reduceCtorEq, and_false, false_and, false_or, or_false, List.not_mem_nil] at hmem
    obtain ⟨⟨-, -, rfl⟩, -⟩ | ⟨⟨rfl, rfl, rfl⟩, -⟩ | ⟨⟨rfl, rfl, rfl⟩, rfl⟩ | ⟨⟨rfl, rfl, rfl⟩, -⟩ |
      ⟨⟨-, -, rfl⟩, -⟩ := hmem
    · cases hvisible
    · exact .inl (by decide +kernel)
    · exact .inr ⟨rfl, (Path.isPlain_iff.mp (by decide +kernel)).isFileName, by decide +kernel⟩
    · exact .inl (by decide +kernel)
    · cases hvisible

theorem secret_stores_agree_mounted :
    let u : Timeline Tree := ⟨.start, #[], .mounted⟩
    let secrets := SecretTable.ofEntries SecretEntry.mounted.reverse
    (∃ log s,
      exec (SecretStore.directory "secrets" "machines" "worker-user-data") u = (.ok (.ok s),
        { u with log := log }) ∧
      exec (SecretStore.memory secrets "machines" "worker-user-data") u = (.ok (.ok s), u) ∧
      s.find? "userData" = some [105, 103, 110]) ∧
    ∃ log, exec (SecretStore.directory "secrets" "default" "boot") u =
        (.ok (.error ⟨.notFound, "default", "boot"⟩), { u with log := log }) ∧
      exec (SecretStore.memory secrets "default" "boot") u =
        (.ok (.error ⟨.notFound, "default", "boot"⟩), u) := by
  intro u secrets
  have hplain (s : String) (hs : Path.isPlain s = true) : IsComponent s := Path.isPlain_iff.mp hs
  have hmem (e : SecretEntry) : e ∈ SecretEntry.mounted.reverse ↔ e ∈ SecretEntry.mounted :=
    List.mem_reverse
  obtain ⟨⟨log, hrun⟩, hmemory, -, hthere⟩ :=
    secret_stores_agree (u := u) .mounted (hplain "machines" (by decide +kernel))
      (hplain "worker-user-data" (by decide +kernel)) (by decide +kernel) hmem
  obtain ⟨⟨log', hrun'⟩, hmemory', -, hgone⟩ :=
    secret_stores_agree (u := u) .mounted (hplain "default" (by decide +kernel))
      (hplain "boot" (by decide +kernel)) (by decide +kernel) hmem
  rw [if_pos (by decide +kernel)] at hthere
  rw [if_neg (by decide +kernel)] at hgone
  obtain ⟨s, hget, hs⟩ := hthere
  refine ⟨⟨log, s, ?_, ?_, (hs _ _).mpr (by simp [SecretEntry.mounted])⟩, log', ?_, ?_⟩
  · rw [hrun, hget]
  · rw [hmemory, hget]
  · rw [hrun', hgone]
  · rw [hmemory', hgone]

end Provision
