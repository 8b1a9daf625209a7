import Provision.Proofs.Dict
import Provision.Secret

/-!
What is read of a directory that holds a secret: its visible files, whatever the order of their
names; and nothing but what the paths lead to that are looked at.
-/
namespace Provision

namespace Tree

variable {t : Tree} {l : Location} {name : String}

theorem find?_ne_none_iff : t.find? l ≠ none ↔ ∃ e ∈ t.entries, l = e.1 := by
  simp [find?, List.lookup_eq_none_iff]

/-- The names in a directory are those of what is there. -/
theorem mem_namesIn : name ∈ t.namesIn l ↔ t.find? (l ++ [name]) ≠ none := by
  rw [find?_ne_none_iff, namesIn, List.mem_filterMap]
  refine exists_congr fun e => and_congr_right fun _ => ?_
  obtain hnil | ⟨front, last, hlast⟩ := List.eq_nil_or_concat e.1
  · simp [hnil]
  · rw [hlast, List.concat_eq_append, List.dropLast_concat, List.getLast?_concat,
      Option.ite_none_right_eq_some]
    constructor
    · rintro ⟨⟨-, rfl⟩, hname⟩
      rw [Option.some.inj hname]
    · intro he
      obtain ⟨rfl, hname⟩ := List.append_inj' he rfl
      exact ⟨⟨by simp, rfl⟩, congrArg some (List.singleton_inj.mp hname).symm⟩

end Tree

namespace SecretStore

variable {t t' : Tree} {dir key : String} {value : Bytes}

/-- What a name in a directory adds to the secret there: the content of a file that is not
hidden. -/
def content? (t : Tree) (dir name : String) : Option Bytes :=
  if isHiddenName name then none
  else
    match t.node (Path.join dir name) with
    | .ok (.file content) => some content
    | _ => none

theorem content?_eq_some : content? t dir key = some value ↔
    isHiddenName key = false ∧ t.node (Path.join dir key) = .ok (.file value) := by
  unfold content?
  cases isHiddenName key with
  | true => simp
  | false =>
    simp only [Bool.false_eq_true, if_false, true_and]
    split <;> simp_all

/-- Entries are read whatever the order of their names, and however often a name is listed. -/
theorem readEntries_eq {names : List String}
    (h : ∀ n ∈ names, isHiddenName n = false → ∃ node, t.node (Path.join dir n) = .ok node)
    (s : Secret) :
    ∃ s', readEntries t dir s names = .ok s' ∧
      ∀ key, s'.find? key =
        ((if key ∈ names then content? t dir key else none).or (s.find? key)) := by
  induction names generalizing s with
  | nil => exact ⟨s, rfl, fun key => by simp⟩
  | cons n names ih =>
    obtain ⟨hn, hnames⟩ := List.forall_mem_cons.mp h
    have hpassed (hnone : content? t dir n = none)
        (hread : readEntries t dir s (n :: names) = readEntries t dir s names) :
        ∃ s', readEntries t dir s (n :: names) = .ok s' ∧
          ∀ key, s'.find? key =
            ((if key ∈ n :: names then content? t dir key else none).or (s.find? key)) := by
      obtain ⟨s', hs', hfind⟩ := ih hnames s
      refine ⟨s', hread.trans hs', fun key => (hfind key).trans ?_⟩
      by_cases hkey : key = n
      · simp [hkey, hnone]
      · simp [hkey]
    cases hhidden : isHiddenName n with
    | true => exact hpassed (by simp [content?, hhidden]) (by simp [readEntries, hhidden])
    | false =>
      obtain ⟨node, hnode⟩ := hn hhidden
      cases node with
      | file content =>
        have hcontent : content? t dir n = some content := content?_eq_some.mpr ⟨hhidden, hnode⟩
        obtain ⟨s', hs', hfind⟩ := ih hnames (s.insert n content)
        refine ⟨s', by simp [readEntries, hhidden, hnode, hs'], fun key => (hfind key).trans ?_⟩
        rw [Dict.find?_insert]
        by_cases hkey : key = n
        · -- Where the name is listed again, the same content is put in place of itself.
          by_cases hmem : n ∈ names <;> simp [hkey, hmem, hcontent]
        · simp [hkey]
      | directory | link =>
        exact hpassed (by simp [content?, hhidden, hnode]) (by simp [readEntries, hhidden, hnode])

/-- Entries are read, unless there is a visible name that leads to nothing. -/
theorem readEntries_error_or (names : List String) (s : Secret) :
    (∃ n ∈ names, isHiddenName n = false ∧ ∃ fault, t.node (Path.join dir n) = .error fault ∧
        readEntries t dir s names = .error fault) ∨
      ∀ n ∈ names, isHiddenName n = false → ∃ node, t.node (Path.join dir n) = .ok node := by
  induction names generalizing s with
  | nil => exact .inr nofun
  | cons n names ih =>
    have hpassed (s' : Secret)
        (hread : readEntries t dir s (n :: names) = readEntries t dir s' names)
        (hn : isHiddenName n = false → ∃ node, t.node (Path.join dir n) = .ok node) :
        (∃ n' ∈ n :: names, isHiddenName n' = false ∧
          ∃ fault, t.node (Path.join dir n') = .error fault ∧
            readEntries t dir s (n :: names) = .error fault) ∨
          ∀ n' ∈ n :: names, isHiddenName n' = false →
            ∃ node, t.node (Path.join dir n') = .ok node := by
      obtain ⟨n', hmem, hvisible, fault, hnode, herror⟩ | hnodes := ih s'
      · exact .inl ⟨n', List.mem_cons_of_mem n hmem, hvisible, fault, hnode, hread.trans herror⟩
      · exact .inr (List.forall_mem_cons.mpr ⟨hn, hnodes⟩)
    cases hhidden : isHiddenName n with
    | true => exact hpassed s (by simp [readEntries, hhidden]) (by simp [hhidden])
    | false =>
      cases hnode : t.node (Path.join dir n) with
      | error fault =>
        exact .inl ⟨n, List.mem_cons_self, hhidden, fault,
          hnode, by simp [readEntries, hhidden, hnode]⟩
      | ok node =>
        cases node with
        | file content =>
          exact hpassed (s.insert n content) (by simp [readEntries, hhidden, hnode])
            fun _ => ⟨_, hnode⟩
        | directory | link =>
          exact hpassed s (by simp [readEntries, hhidden, hnode]) fun _ => ⟨_, hnode⟩

/-- Entries are read of nothing but what the visible names lead to. -/
theorem readEntries_congr {names : List String}
    (h : ∀ n ∈ names, isHiddenName n = false → t'.node (Path.join dir n) = t.node (Path.join dir n))
    (s : Secret) :
    readEntries t' dir s names = readEntries t dir s names := by
  induction names generalizing s with
  | nil => rfl
  | cons n names ih =>
    obtain ⟨hn, hnames⟩ := List.forall_mem_cons.mp h
    cases hhidden : isHiddenName n with
    | true => simp only [readEntries, hhidden, if_true, ih hnames]
    | false =>
      simp only [readEntries, hhidden, Bool.false_eq_true, if_false, hn hhidden]
      split
      · rfl
      · exact ih hnames _
      · exact ih hnames s

/-- What comes of reading a secret in a directory: just its visible files; or that there is no such
directory; or what stands in the way of its listing, or of following a visible name in it. -/
inductive Reading (t : Tree) (dir ns name : String) : Except SecretError Secret → Prop
  | entries {names : List String} {s : Secret} (hlist : t.list dir = .ok names)
      (hnodes : ∀ n ∈ names, isHiddenName n = false → ∃ node, t.node (Path.join dir n) = .ok node)
      (hfind : ∀ key value, s.find? key = some value ↔
        key ∈ names ∧ isHiddenName key = false ∧ t.node (Path.join dir key) = .ok (.file value)) :
      Reading t dir ns name (.ok s)
  | absent (hlist : t.list dir = .error .absent) :
      Reading t dir ns name (.error ⟨.notFound, ns, name⟩)
  | unlisted {fault : FileFault} (hlist : t.list dir = .error fault) (hfault : fault ≠ .absent) :
      Reading t dir ns name (.error ⟨.io fault, ns, name⟩)
  | unread {names : List String} {n : String} {fault : FileFault} (hlist : t.list dir = .ok names)
      (hn : n ∈ names) (hvisible : isHiddenName n = false)
      (hnode : t.node (Path.join dir n) = .error fault) :
      Reading t dir ns name (.error ⟨.io fault, ns, name⟩)

theorem reading_readSecret (t : Tree) (dir ns name : String) :
    Reading t dir ns name (readSecret t dir ns name) := by
  unfold readSecret
  split
  next hlist => exact .absent hlist
  next fault hfault hlist => exact .unlisted hlist hfault
  next names hlist =>
    obtain ⟨n, hn, hvisible, fault, hnode, herror⟩ | hnodes := readEntries_error_or names ∅
    · rw [herror]
      exact .unread hlist hn hvisible hnode
    · obtain ⟨s, hread, hfind⟩ := readEntries_eq hnodes ∅
      rw [hread]
      refine .entries hlist hnodes fun key value => ?_
      rw [hfind, Dict.find?_empty, Option.or_none, Option.ite_none_right_eq_some, content?_eq_some]

theorem Reading.ne_invalidReference {ns name : String} {e : SecretError}
    (h : Reading t dir ns name (.error e)) :
    e.fault ≠ .invalidReference := by
  cases h <;> nofun

/-- A secret is read of nothing but the listing of its directory and what the visible names lead
to. -/
theorem readSecret_congr {ns name : String} (hlist : t'.list dir = t.list dir)
    (hnodes : ∀ names, t.list dir = .ok names → ∀ n ∈ names, isHiddenName n = false →
      t'.node (Path.join dir n) = t.node (Path.join dir n)) :
    readSecret t' dir ns name = readSecret t dir ns name := by
  unfold readSecret
  rw [hlist]
  split
  · rfl
  · rfl
  next names hok => rw [readEntries_congr (hnodes names hok)]

end SecretStore
end Provision
