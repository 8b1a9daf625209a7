import Provision.Files.Tree
import Provision.Proofs.Files.Names

/-!
Where paths lead. All names but the last lead from one directory to another, which nothing changes
that leaves directories and links alone; what comes of a path then depends on what stands at its
last name.
-/
namespace Provision

/-- Where it is that a path leads. -/
def Target.place : Target → Location
  | .node l _ => l
  | .vacant l => l

namespace Tree

open Provision.Path (IsName)

section Entries

variable (t : Tree) (l : Location) (n : Node)

theorem lookup_filter_ne (es : List (Location × Node)) (l l' : Location) :
    (es.filter fun e => e.1 ≠ l).lookup l' = if l' = l then none else es.lookup l' := by
  induction es with
  | nil => simp
  | cons e es ih =>
    rw [List.filter_cons, List.lookup_cons]
    by_cases he : e.1 = l <;> grind

theorem find?_erase (l' : Location) : (t.erase l).find? l' = if l' = l then none else t.find? l' :=
  lookup_filter_ne t.entries l l'

theorem find?_put (l' : Location) :
    (t.put l n).find? l' = if l' = l then some n else t.find? l' := by
  have hparts : (t.put l n).find? l' = ((t.erase l).find? l').or ([(l, n)].lookup l') :=
    List.lookup_append
  rw [hparts, find?_erase]
  by_cases hl : l' = l
  · simp [hl]
  · simp [hl, List.lookup_cons, beq_false_of_ne hl]

theorem erase_put_self : (t.put l n).erase l = t.erase l := by
  simp [erase, put]

theorem erase_erase : (t.erase l).erase l = t.erase l := by
  simp [erase]

theorem put_put (n' : Node) : (t.put l n).put l n' = t.put l n' := by
  simp [erase, put]

theorem put_erase_self : (t.erase l).put l n = t.put l n := by
  simp [erase, put]

theorem erase_put_of_ne {l l' : Location} (h : l ≠ l') :
    (t.put l n).erase l' = (t.erase l').put l n := by
  have hkept : [(l, n)].filter (fun e => e.1 ≠ l') = [(l, n)] := by simp [h]
  simp only [erase, put, List.filter_append, hkept, List.filter_filter, Bool.and_comm]

end Entries

/-- What is at a location, or that nothing is. -/
def there (t : Tree) (l : Location) : Target :=
  match t.find? l with
  | none => .vacant l
  | some n => .node l n

/-- The names lead from one directory to another, with so many links left to follow. -/
inductive Leads (t : Tree) : (links : Nat) → Location → List String → (left : Nat) → Location → Prop
  | nil (links : Nat) (here : Location) : Leads t links here [] links here
  | stay {links left : Nat} {here dir : Location} {name : String} {rest : List String}
      (hname : name = "" ∨ name = ".") (h : Leads t links here rest left dir) :
      Leads t links here (name :: rest) left dir
  | up {links left : Nat} {here dir : Location} {rest : List String}
      (h : Leads t links here.dropLast rest left dir) :
      Leads t links here (".." :: rest) left dir
  | down {links left : Nat} {here dir : Location} {name : String} {rest : List String}
      (hname : IsName name) (hsize : name.utf8ByteSize ≤ maxName)
      (hfind : t.find? (here ++ [name]) = some .directory)
      (h : Leads t links (here ++ [name]) rest left dir) :
      Leads t links here (name :: rest) left dir
  | follow {links left : Nat} {here dir : Location} {name target : String} {rest : List String}
      (hname : IsName name) (hsize : name.utf8ByteSize ≤ maxName)
      (hfind : t.find? (here ++ [name]) = some (.link target))
      (h : Leads t links (origin here target) (Path.names target ++ rest) left dir) :
      Leads t (links + 1) here (name :: rest) left dir

section Steps

variable {t t' : Tree} {purpose : Purpose} {links left : Nat} {here dir : Location} {name : String}
  {rest front : List String}

theorem walk_nil : t.walk purpose links here [] = .ok (.node here .directory) := by
  rw [walk]

theorem walk_stay (h : name = "" ∨ name = ".") :
    t.walk purpose links here (name :: rest) = t.walk purpose links here rest := by
  rw [walk, if_pos h]

theorem walk_up :
    t.walk purpose links here (".." :: rest) = t.walk purpose links here.dropLast rest := by
  rw [walk, if_neg (by decide), if_pos rfl]

/-- One step to a name, unless a file is to be made of it and a slash comes after it. -/
theorem walk_name (hname : IsName name) (hsize : name.utf8ByteSize ≤ maxName)
    (hrest : purpose ≠ .creation ∨ rest = [] ∨ ∃ n ∈ rest, n ≠ "") :
    t.walk purpose links here (name :: rest) =
      match t.find? (here ++ [name]) with
      | none => if rest = [] then .ok (.vacant (here ++ [name])) else .error .absent
      | some .directory => walk t purpose links (here ++ [name]) rest
      | some (.file content) =>
        if rest = [] then .ok (.node (here ++ [name]) (.file content)) else .error .notDirectory
      | some (.link target) =>
        if rest = [] ∧ purpose = .name then .ok (.node (here ++ [name]) (.link target))
        else
          match links with
          | 0 => .error .tooManyLinks
          | links + 1 => walk t purpose links (origin here target) (Path.names target ++ rest) := by
  have hcreation : ¬(purpose = .creation ∧ rest ≠ [] ∧ rest.all (· = "") = true) := by
    rintro ⟨hcreation, hne, hall⟩
    obtain ⟨n, hn, hn'⟩ := (hrest.resolve_left fun h => h hcreation).resolve_left hne
    exact hn' (by simpa using List.all_eq_true.mp hall n hn)
  rw [walk]
  exact (if_neg (not_or.mpr ⟨hname.1, hname.2.1⟩)).trans <| (if_neg hname.2.2).trans <|
    (if_neg hcreation).trans (if_neg (Nat.not_lt.mpr hsize))

/-- What a name has led to: a step on, or what stands there when no name is left. -/
theorem walk_eq_ok_cases {target : Target}
    (h : t.walk purpose links here (name :: rest) = .ok target) :
    (name = "" ∨ name = ".") ∧ t.walk purpose links here rest = .ok target ∨
      name = ".." ∧ t.walk purpose links here.dropLast rest = .ok target ∨
      (IsName name ∧ name.utf8ByteSize ≤ maxName) ∧
        (t.find? (here ++ [name]) = some .directory ∧
          t.walk purpose links (here ++ [name]) rest = .ok target ∨
          (∃ text left, t.find? (here ++ [name]) = some (.link text) ∧ links = left + 1 ∧
            t.walk purpose left (origin here text) (Path.names text ++ rest) = .ok target) ∨
          rest = [] ∧ target = t.there (here ++ [name]) ∧
            t.find? (here ++ [name]) ≠ some .directory) := by
  by_cases hstay : name = "" ∨ name = "."
  · exact .inl ⟨hstay, walk_stay hstay ▸ h⟩
  by_cases hup : name = ".."
  · subst hup
    exact .inr (.inl ⟨rfl, walk_up ▸ h⟩)
  obtain ⟨hempty, hdot⟩ := not_or.mp hstay
  refine .inr (.inr ?_)
  rw [walk, if_neg hstay, if_neg hup] at h
  split at h
  · cases h
  split at h
  · cases h
  next hsize =>
  refine ⟨⟨⟨hempty, hdot, hup⟩, Nat.le_of_not_lt hsize⟩, ?_⟩
  split at h
  next hfind =>
    split at h <;> cases h
    exact .inr (.inr ⟨‹_›, by simp [there, hfind], by simp [hfind]⟩)
  next hfind => exact .inl ⟨hfind, h⟩
  next content hfind =>
    split at h <;> cases h
    exact .inr (.inr ⟨‹_›, by simp [there, hfind], by simp [hfind]⟩)
  next text hfind =>
    split at h
    next hlast =>
      cases h
      exact .inr (.inr ⟨hlast.1, by simp [there, hfind], by simp [hfind]⟩)
    next =>
      cases links with
      | zero => cases h
      | succ left => exact .inr (.inl ⟨text, left, hfind, rfl, h⟩)

/-- Directories lead down by their names. -/
theorem leads_of_directories {names : List String}
    (hnames : ∀ n ∈ names, IsName n ∧ n.utf8ByteSize ≤ maxName)
    (hdirs : ∀ k < names.length, t.find? (here ++ names.take (k + 1)) = some .directory) :
    t.Leads links here names links (here ++ names) := by
  induction names generalizing here with
  | nil => exact (List.append_nil here).symm ▸ .nil links here
  | cons name names ih =>
    obtain ⟨⟨hname, hsize⟩, hnames⟩ := List.forall_mem_cons.mp hnames
    refine .down hname hsize (hdirs 0 (Nat.succ_pos _)) ?_
    have hrest := @ih (here ++ [name]) hnames fun k hk => by
      simpa using hdirs (k + 1) (Nat.succ_lt_succ hk)
    rwa [List.append_assoc] at hrest

/-- What comes of a path depends on the directory that holds the names at its end. -/
theorem Leads.walk_append (h : t.Leads links here front left dir) (hrest : ∃ n ∈ rest, n ≠ "") :
    t.walk purpose links here (front ++ rest) = t.walk purpose left dir rest := by
  obtain ⟨n, hn, hn'⟩ := hrest
  induction h with
  | nil => rfl
  | stay hstay _ ih => exact (walk_stay hstay).trans ih
  | up _ ih => exact walk_up.trans ih
  | @down links left here dir name front hname hsize hfind _ ih =>
    rw [List.cons_append,
      walk_name hname hsize (.inr (.inr ⟨n, List.mem_append_right _ hn, hn'⟩)), hfind]
    exact ih
  | @follow links left here dir name target front hname hsize hfind _ ih =>
    have hne : front ++ rest ≠ [] := List.append_ne_nil_of_right_ne_nil _ (List.ne_nil_of_mem hn)
    rw [List.cons_append,
      walk_name hname hsize (.inr (.inr ⟨n, List.mem_append_right _ hn, hn'⟩)), hfind]
    simp only [hne, false_and, if_false]
    rw [← List.append_assoc]
    exact ih

/-- A path that leads somewhere leads through a directory that holds its last name. -/
theorem exists_leads {target : Target}
    (h : t.walk purpose links here (front ++ [name]) = .ok target) :
    ∃ left dir, t.Leads links here front left dir ∧
      t.walk purpose left dir [name] = .ok target := by
  induction links using Nat.strongRecOn generalizing here front with
  | ind links ihlinks =>
    induction front generalizing here with
    | nil => exact ⟨links, here, .nil links here, h⟩
    | cons n front ih =>
      rw [List.cons_append] at h
      obtain ⟨hstay, hrest⟩ | ⟨rfl, hrest⟩ |
        ⟨⟨hn, hsize⟩, ⟨hfind, hrest⟩ | ⟨text, left, hfind, rfl, hrest⟩ | ⟨hnil, -⟩⟩ :=
        walk_eq_ok_cases h
      · obtain ⟨left, dir, hlead, hlast⟩ := ih hrest
        exact ⟨left, dir, .stay hstay hlead, hlast⟩
      · obtain ⟨left, dir, hlead, hlast⟩ := ih hrest
        exact ⟨left, dir, .up hlead, hlast⟩
      · obtain ⟨left, dir, hlead, hlast⟩ := ih hrest
        exact ⟨left, dir, .down hn hsize hfind hlead, hlast⟩
      · rw [← List.append_assoc] at hrest
        obtain ⟨left, dir, hlead, hlast⟩ := ihlinks _ (Nat.lt_succ_self _) hrest
        exact ⟨left, dir, .follow hn hsize hfind hlead, hlast⟩
      · exact absurd hnil (List.append_ne_nil_of_right_ne_nil _ (List.cons_ne_nil _ _))

/-- A path to a directory leads there. -/
theorem exists_leads_of_directory
    (h : t.walk purpose links here rest = .ok (.node dir .directory)) :
    ∃ left, t.Leads links here rest left dir := by
  induction links using Nat.strongRecOn generalizing here rest with
  | ind links ihlinks =>
    induction rest generalizing here with
    | nil =>
      rw [walk_nil] at h
      cases h
      exact ⟨links, .nil links _⟩
    | cons n rest ih =>
      obtain ⟨hstay, hrest⟩ | ⟨rfl, hrest⟩ |
        ⟨⟨hn, hsize⟩, ⟨hfind, hrest⟩ | ⟨text, left, hfind, rfl, hrest⟩ | ⟨-, hdir, hnone⟩⟩ :=
        walk_eq_ok_cases h
      · obtain ⟨left, hlead⟩ := ih hrest
        exact ⟨left, .stay hstay hlead⟩
      · obtain ⟨left, hlead⟩ := ih hrest
        exact ⟨left, .up hlead⟩
      · obtain ⟨left, hlead⟩ := ih hrest
        exact ⟨left, .down hn hsize hfind hlead⟩
      · obtain ⟨left, hlead⟩ := ihlinks _ (Nat.lt_succ_self _) hrest
        exact ⟨left, .follow hn hsize hfind hlead⟩
      · unfold there at hdir
        split at hdir <;> simp_all

/-- Names that lead to a directory are a path to it. -/
theorem Leads.walk_eq (h : t.Leads links here front left dir) :
    t.walk .content links here front = .ok (.node dir .directory) := by
  induction h with
  | nil => exact walk_nil
  | stay hstay _ ih => exact (walk_stay hstay).trans ih
  | up _ ih => exact walk_up.trans ih
  | down hname hsize hfind _ ih =>
    rw [walk_name hname hsize (.inl (by decide)), hfind]
    exact ih
  | follow hname hsize hfind _ ih =>
    rw [walk_name hname hsize (.inl (by decide)), hfind]
    simpa using ih

/-- A path leads where it does with more links to follow, too. -/
theorem walk_mono {target : Target} (h : t.walk purpose links here rest = .ok target) {more : Nat}
    (hmore : links ≤ more) :
    t.walk purpose more here rest = .ok target := by
  fun_induction walk t purpose links here rest generalizing more with
  | case1 links here => rw [walk_nil, h]
  | case2 links here name rest hstay ih => exact (walk_stay hstay).trans (ih h hmore)
  | case3 links here rest _ ih => exact walk_up.trans (ih h hmore)
  | case4 | case5 | case7 | case10 | case12 => cases h
  | case6 | case9 | case11 => rw [walk]; simp_all
  | case8 links here name rest hstay hup hcreation hsize hfind ih =>
    rw [walk, if_neg hstay, if_neg hup, if_neg hcreation, if_neg hsize, hfind]
    exact ih h hmore
  | case13 here name rest hstay hup hcreation hsize text hfind hlast links ih =>
    obtain ⟨more, rfl⟩ : ∃ k, more = k + 1 := ⟨more - 1, by omega⟩
    rw [walk, if_neg hstay, if_neg hup, if_neg hcreation, if_neg hsize, hfind]
    simp only [if_neg hlast]
    exact ih h (by omega)

theorem leads_append {names : List String} :
    t.Leads links here (front ++ names) left dir ↔
      ∃ between mid, t.Leads links here front between mid ∧ t.Leads between mid names left dir := by
  constructor
  · intro h
    generalize hall : front ++ names = all at h
    induction h generalizing front with
    | nil links here =>
      obtain ⟨rfl, rfl⟩ := List.append_eq_nil_iff.mp hall
      exact ⟨links, here, .nil links here, .nil links here⟩
    | @stay links left here dir name rest hstay hlead ih =>
      obtain ⟨rfl, rfl⟩ | ⟨front, rfl, rfl⟩ := List.append_eq_cons_iff.mp hall
      · exact ⟨links, here, .nil links here, .stay hstay hlead⟩
      · obtain ⟨between, mid, hfront, hnames⟩ := ih rfl
        exact ⟨between, mid, .stay hstay hfront, hnames⟩
    | @up links left here dir rest hlead ih =>
      obtain ⟨rfl, rfl⟩ | ⟨front, rfl, rfl⟩ := List.append_eq_cons_iff.mp hall
      · exact ⟨links, here, .nil links here, .up hlead⟩
      · obtain ⟨between, mid, hfront, hnames⟩ := ih rfl
        exact ⟨between, mid, .up hfront, hnames⟩
    | @down links left here dir name rest hname hsize hfind hlead ih =>
      obtain ⟨rfl, rfl⟩ | ⟨front, rfl, rfl⟩ := List.append_eq_cons_iff.mp hall
      · exact ⟨links, here, .nil links here, .down hname hsize hfind hlead⟩
      · obtain ⟨between, mid, hfront, hnames⟩ := ih rfl
        exact ⟨between, mid, .down hname hsize hfind hfront, hnames⟩
    | @follow links left here dir name text rest hname hsize hfind hlead ih =>
      obtain ⟨rfl, rfl⟩ | ⟨front, rfl, rfl⟩ := List.append_eq_cons_iff.mp hall
      · exact ⟨links + 1, here, .nil _ here, .follow hname hsize hfind hlead⟩
      · obtain ⟨between, mid, hfront, hnames⟩ := ih (List.append_assoc ..)
        exact ⟨between, mid, .follow hname hsize hfind hfront, hnames⟩
  · rintro ⟨between, mid, hfront, hnames⟩
    induction hfront with
    | nil => exact hnames
    | stay hstay _ ih => exact .stay hstay (ih hnames)
    | up _ ih => exact .up (ih hnames)
    | down hname hsize hfind _ ih => exact .down hname hsize hfind (ih hnames)
    | follow hname hsize hfind _ ih =>
      exact .follow hname hsize hfind (List.append_assoc .. ▸ ih hnames)

end Steps

theorem place_there (t : Tree) (l : Location) : (t.there l).place = l := by
  unfold there
  split <;> rfl

theorem there_eq_node_iff {t : Tree} {l l' : Location} {n : Node} :
    t.there l = .node l' n ↔ l = l' ∧ t.find? l = some n := by
  unfold there
  split <;> simp [*]

/-- No links are at a location, nor on a way from there. -/
def Unlinked (t : Tree) (here : Location) (way : List String) : Prop :=
  ∀ p, p <+: way → ∀ text, t.find? (here ++ p) ≠ some (.link text)

section Unlinked

variable {t t' : Tree} {here : Location} {name : String} {names : List String} {purpose : Purpose}
  {links links' : Nat}
  {target : Target}

theorem Unlinked.tail (h : t.Unlinked here (name :: names)) : t.Unlinked (here ++ [name]) names :=
  fun p hp => by
  simpa using h (name :: p) (List.cons_prefix_cons.mpr ⟨rfl, hp⟩)

theorem Unlinked.head (h : t.Unlinked here (name :: names)) (text : String) :
    t.find? (here ++ [name]) ≠ some (.link text) :=
  h [name] (List.cons_prefix_cons.mpr ⟨rfl, List.nil_prefix⟩) text

/-- Names that are those of no links lead down just as they say, to what is there. -/
theorem eq_there_of_walk (hnames : ∀ n ∈ names, IsName n) (hlinks : t.Unlinked here names)
    (hne : names ≠ []) (h : t.walk purpose links here names = .ok target) :
    target = t.there (here ++ names) := by
  induction names generalizing here with
  | nil => exact absurd rfl hne
  | cons name names ih =>
    obtain ⟨hname, hnames⟩ := List.forall_mem_cons.mp hnames
    obtain ⟨hstay, -⟩ | ⟨hup, -⟩ | ⟨-, ⟨hfind, hrest⟩ | ⟨text, -, hfind, -⟩ | ⟨rfl, htarget, -⟩⟩ :=
      walk_eq_ok_cases h
    · exact absurd hstay (not_or.mpr ⟨hname.1, hname.2.1⟩)
    · exact absurd hup hname.2.2
    · by_cases hlast : names = []
      · subst hlast
        cases walk_nil.symm.trans hrest
        exact (there_eq_node_iff.mpr ⟨rfl, hfind⟩).symm
      · simpa using ih hnames hlinks.tail hlast hrest
    · exact absurd hfind (hlinks.head text)
    · exact htarget

/-- Where no links are on a way, it leads to the same in all trees that have the same on it. -/
theorem walk_congr (hnames : ∀ n ∈ names, IsName n) (hlinks : t.Unlinked here names)
    (hsame : ∀ p, p <+: names → t'.find? (here ++ p) = t.find? (here ++ p)) :
    t'.walk purpose links' here names = t.walk purpose links here names := by
  induction names generalizing here with
  | nil => rw [walk_nil, walk_nil]
  | cons name names ih =>
    obtain ⟨hname, hnames⟩ := List.forall_mem_cons.mp hnames
    have hfind := hsame [name] (List.cons_prefix_cons.mpr ⟨rfl, List.nil_prefix⟩)
    have hrest := ih hnames hlinks.tail fun p hp => by
      simpa using hsame (name :: p) (List.cons_prefix_cons.mpr ⟨rfl, hp⟩)
    rw [walk, walk, hfind, hrest]
    cases hthere : t.find? (here ++ [name]) with
    | none => simp only [hname.1, hname.2.1, hname.2.2, or_self, if_false]
    | some n =>
      cases n with
      | link text => exact absurd hthere (hlinks.head text)
      | file | directory => simp only [hname.1, hname.2.1, hname.2.2, or_self, if_false]

end Unlinked

/-- A place where a file can be written: there is nothing, or a file. -/
def Writable (t : Tree) (l : Location) : Prop :=
  t.find? l = none ∨ ∃ content, t.find? l = some (.file content)

/-- A name that leads to no directory: that of a file, or of a link to something else. -/
def Replaceable (t : Tree) (dir : Location) (name : String) : Prop :=
  (∃ content, t.find? (dir ++ [name]) = some (.file content)) ∨
    ∃ text, t.find? (dir ++ [name]) = some (.link text) ∧
      ∀ links left d, ¬t.Leads links (origin dir text) (Path.names text) left d

/-- A slash at the end leads no further. -/
theorem Leads.of_slash {t : Tree} {links left : Nat} {here dir : Location} {front : List String}
    (h : t.Leads links here (front ++ [""]) left dir) :
    ∃ left, t.Leads links here front left dir := by
  obtain ⟨left, mid, hfront, hlast⟩ := exists_leads h.walk_eq
  rw [walk_stay (.inl rfl)] at hlast
  cases walk_nil.symm.trans hlast
  exact ⟨left, hfront⟩

/-- Paths begin where they did, directories are what they were, and so are links that lead to
directories. -/
structure SameWays (t t' : Tree) : Prop where
  home : t'.home = t.home
  directory : ∀ l, t.find? l = some .directory → t'.find? l = some .directory
  link : ∀ here name text, t.find? (here ++ [name]) = some (.link text) →
    t'.find? (here ++ [name]) = some (.link text) ∨
      ∀ links left dir, ¬t.Leads links (origin here text) (Path.names text) left dir

theorem Leads.mono {t t' : Tree} (hways : t.SameWays t') {links left : Nat} {here dir : Location}
    {names : List String} (h : t.Leads links here names left dir) :
    t'.Leads links here names left dir := by
  induction h with
  | nil => exact .nil _ _
  | stay hstay _ ih => exact .stay hstay ih
  | up _ ih => exact .up ih
  | down hname hsize hfind _ ih => exact .down hname hsize (hways.directory _ hfind) ih
  | follow hname hsize hfind hlead ih =>
    obtain hkept | hnowhere := hways.link _ _ _ hfind
    · exact .follow hname hsize hkept ih
    · obtain ⟨between, mid, htarget, -⟩ := leads_append.mp hlead
      exact absurd htarget (hnowhere _ _ _)

/-- A text that can be followed as a path. -/
structure IsProper (path : String) : Prop where
  plain : ∀ c ∈ path.toList, c.toNat ≠ 0
  nonempty : path ≠ ""
  size : path.utf8ByteSize ≤ maxPath

instance (path : String) : Decidable (IsProper path) :=
  decidable_of_iff
    (path.toList.all (fun c => c.toNat != 0) = true ∧ path ≠ "" ∧ path.utf8ByteSize ≤ maxPath)
    ⟨fun h => ⟨by simpa using h.1, h.2.1, h.2.2⟩,
      fun h => ⟨by simpa using h.plain, h.nonempty, h.size⟩⟩

/-- A path leads through a directory and from there on by the names of a way. -/
def Through (t : Tree) (path : String) (base : Location) (way : List String) : Prop :=
  ∃ front left, Path.names path = front ++ way ∧
    t.Leads maxLinks (origin t.home path) front left base

/-- A path that ends in a name of something in a directory. -/
structure EndsIn (t : Tree) (path : String) (dir : Location) (name : String) : Prop where
  isProper : IsProper path
  isName : IsName name
  size : name.utf8ByteSize ≤ maxName
  leads : ∃ front left, Path.names path = front ++ [name] ∧
    t.Leads maxLinks (origin t.home path) front left dir

section Changes

variable {t : Tree} {dir : Location} {name : String} {l s : Location}

theorem Writable.ne (h : t.Writable s) {n : Node} (hl : t.find? l = some n)
    (hn : ∀ content, n ≠ .file content) : l ≠ s := by
  rintro rfl
  obtain hnone | ⟨content, hfile⟩ := h
  · cases hnone.symm.trans hl
  · exact hn content (Option.some.inj (hl.symm.trans hfile))

theorem Replaceable.ne_directory (h : t.Replaceable dir name) :
    t.find? (dir ++ [name]) ≠ some .directory := by
  obtain ⟨content, hfile⟩ | ⟨text, htext, -⟩ := h
  · simp [hfile]
  · simp [htext]

/-- Files can be written, and put where there was a file or a link to one. -/
theorem SameWays.of_find? {t' : Tree} (hhome : t'.home = t.home) (hs : t.Writable s)
    (hname : t.Replaceable dir name) (h : ∀ l, l ≠ s → l ≠ dir ++ [name] → t'.find? l = t.find? l) :
    t.SameWays t' where
  home := hhome
  directory l hl := (h l (hs.ne hl (by simp)) fun he => hname.ne_directory (he ▸ hl)).trans hl
  link here n text hl := by
    by_cases hne : here ++ [n] = dir ++ [name]
    · obtain ⟨rfl, hn⟩ := List.append_inj' hne rfl
      obtain rfl : n = name := List.singleton_inj.mp hn
      obtain ⟨content, hfile⟩ | ⟨text', htext, hnowhere⟩ := hname
      · cases hl.symm.trans hfile
      · cases hl.symm.trans htext
        exact .inr hnowhere
    · exact .inl ((h _ (hs.ne hl (by simp)) hne).trans hl)

end Changes

section Ends

variable {t t' : Tree} {purpose : Purpose} {path : String} {dir : Location}
  {name : String} {target : Target}

theorem IsProper.resolve (h : IsProper path) :
    t.resolve purpose path = t.walk purpose maxLinks (origin t.home path) (Path.names path) := by
  have hplain : path.toList.any (fun c => c.toNat = 0) = false := by simpa using h.plain
  rw [Tree.resolve, hplain, if_neg (by decide), if_neg h.nonempty, if_neg (Nat.not_lt.mpr h.size)]

theorem isProper_of_resolve (h : t.resolve purpose path = .ok target) : IsProper path := by
  unfold resolve at h
  split at h
  · cases h
  split at h
  · cases h
  split at h
  · cases h
  · exact ⟨by simp_all, ‹_›, Nat.le_of_not_lt ‹_›⟩

/-- A path that leads through a directory has a way from there that is all that its end depends
on. -/
theorem Through.walk_eq {base : Location} {way : List String} (h : t.Through path base way)
    (hway : ∃ n ∈ way, n ≠ "") :
    ∃ left, t.walk purpose maxLinks (origin t.home path) (Path.names path) =
      t.walk purpose left base way := by
  obtain ⟨front, left, hnames, hlead⟩ := h
  exact ⟨left, hnames ▸ hlead.walk_append hway⟩

/-- Where a path leads through a directory and no links are on its way from there, it leads to what
is there. -/
theorem Through.eq_there {base : Location} {way : List String} (h : t.Through path base way)
    (hnames : ∀ n ∈ way, IsName n) (hlinks : t.Unlinked base way) (hne : way ≠ [])
    (hok : t.resolve purpose path = .ok target) : target = t.there (base ++ way) := by
  obtain ⟨n, hn⟩ := List.exists_mem_of_ne_nil way hne
  obtain ⟨left, hwalk⟩ := h.walk_eq ⟨n, hn, (hnames n hn).1⟩
  rw [(isProper_of_resolve hok).resolve, hwalk] at hok
  exact eq_there_of_walk hnames hlinks hne hok

/-- So it leads to the same in all trees that have the same on that way. -/
theorem Through.resolve_congr {base : Location} {way : List String} (h : t.Through path base way)
    (h' : t'.Through path base way) (hnames : ∀ n ∈ way, IsName n) (hlinks : t.Unlinked base way)
    (hne : way ≠ []) (hsame : ∀ p, p <+: way → t'.find? (base ++ p) = t.find? (base ++ p)) :
    t'.resolve purpose path = t.resolve purpose path := by
  obtain ⟨n, hn⟩ := List.exists_mem_of_ne_nil way hne
  have hway : ∃ n ∈ way, n ≠ "" := ⟨n, hn, (hnames n hn).1⟩
  obtain ⟨left, hwalk⟩ := h.walk_eq hway
  obtain ⟨left', hwalk'⟩ := h'.walk_eq hway
  rw [resolve, resolve, hwalk, hwalk', walk_congr hnames hlinks hsame]

theorem EndsIn.mono (hways : t.SameWays t') (h : t.EndsIn path dir name) :
    t'.EndsIn path dir name := by
  obtain ⟨front, left, hnames, hlead⟩ := h.leads
  exact ⟨h.isProper, h.isName, h.size, front, left, hnames, hways.home ▸ hlead.mono hways⟩

/-- A path leads to what stands at its last name, if that is no link that must be followed. -/
theorem EndsIn.resolve (h : t.EndsIn path dir name)
    (hlink : purpose = .name ∨ ∀ text, t.find? (dir ++ [name]) ≠ some (.link text)) :
    t.resolve purpose path = .ok (t.there (dir ++ [name])) := by
  obtain ⟨front, left, hnames, hlead⟩ := h.leads
  rw [h.isProper.resolve, hnames,
    hlead.walk_append ⟨name, List.mem_singleton_self name, h.isName.1⟩,
    walk_name h.isName h.size (.inr (.inl rfl)), there]
  split
  · simp only [if_true, *]
  · simp only [walk_nil, *]
  · simp only [if_true, *]
  next text hfind =>
    obtain hname | hnone := hlink
    · simp [hname, hfind]
    · exact absurd hfind (hnone text)

theorem read_eq_ok_iff {content : Bytes} :
    t.read path = .ok content ↔ ∃ l, t.resolve .content path = .ok (.node l (.file content)) := by
  unfold read node
  cases t.resolve .content path with
  | error e => simp
  | ok target =>
    cases target with
    | vacant l => simp
    | node l n => cases n <;> simp

theorem EndsIn.replaceable_of_read (h : t.EndsIn path dir name) {content : Bytes}
    (hread : t.read path = .ok content) :
    t.Replaceable dir name := by
  obtain ⟨l, hok⟩ := read_eq_ok_iff.mp hread
  obtain ⟨front, left, hnames, hlead⟩ := h.leads
  rw [h.isProper.resolve, hnames,
    hlead.walk_append ⟨name, List.mem_singleton_self name, h.isName.1⟩] at hok
  obtain ⟨hstay, -⟩ | ⟨hup, -⟩ | ⟨-, ⟨-, hdir⟩ | ⟨text, k, hfind, -, htext⟩ | ⟨-, hthere, -⟩⟩ :=
    walk_eq_ok_cases hok
  · exact absurd hstay (not_or.mpr ⟨h.isName.1, h.isName.2.1⟩)
  · exact absurd hup h.isName.2.2
  · cases walk_nil.symm.trans hdir
  · -- With enough links, the link would lead to a file and to a directory.
    refine .inr ⟨text, hfind, fun links _ d htext' => ?_⟩
    rw [List.append_nil] at htext
    have hfile := walk_mono htext (Nat.le_max_right links k)
    cases hfile.symm.trans (walk_mono htext'.walk_eq (Nat.le_max_left links k))
  · exact .inl ⟨content, (there_eq_node_iff.mp hthere.symm).2⟩

/-- The last name of a path that does not lead to a directory. -/
theorem walk_singleton {links : Nat} {here : Location}
    (h : t.walk purpose links here [name] = .ok target) (hdir : ∀ l, target ≠ .node l .directory) :
    IsName name ∧ name.utf8ByteSize ≤ maxName := by
  obtain ⟨-, h⟩ | ⟨-, h⟩ | ⟨hn, -⟩ := walk_eq_ok_cases h
  · exact absurd (Except.ok.inj (walk_nil.symm.trans h)).symm (hdir _)
  · exact absurd (Except.ok.inj (walk_nil.symm.trans h)).symm (hdir _)
  · exact hn

theorem exists_endsIn (h : t.resolve purpose path = .ok target)
    (hdir : ∀ l, target ≠ .node l .directory) :
    ∃ dir name, t.EndsIn path dir name := by
  have hproper := isProper_of_resolve h
  obtain ⟨front, name, hnames⟩ : ∃ front name, Path.names path = front ++ [name] :=
    ⟨_, _, (List.dropLast_concat_getLast (Path.names_ne_nil path)).symm⟩
  rw [hproper.resolve, hnames] at h
  obtain ⟨left, dir, hlead, hlast⟩ := exists_leads h
  obtain ⟨hname, hsize⟩ := walk_singleton hlast hdir
  exact ⟨dir, name, hproper, hname, hsize, front, left, hnames, hlead⟩

/-- A path with another extension ends in a name of the same directory, and in another one if it is
another path. -/
theorem EndsIn.withExtension (h : t.EndsIn path dir name) {extension : String}
    (hextension : extension.toList ≠ []) (hplain : '/' ∉ extension.toList ∧ '.' ∉ extension.toList)
    (hok : t.resolve purpose (Path.withExtension path extension) = .ok target)
    (hdir : ∀ l, target ≠ .node l .directory) :
    ∃ last, t.EndsIn (Path.withExtension path extension) dir last ∧
      (last = name → Path.withExtension path extension = path) := by
  have hproper := isProper_of_resolve hok
  obtain ⟨front, left, hnames, hlead⟩ := h.leads
  obtain ⟨habsolute, last, hnames', hlast⟩ :=
    Path.names_withExtension hnames h.isName hextension hplain
  have horigin : origin t.home (Path.withExtension path extension) = origin t.home path := by
    rw [origin, habsolute, origin]
  have hne : last ≠ "" := by
    obtain rfl | ⟨hname, -⟩ := hlast
    · decide
    · exact hname.1
  rw [hproper.resolve, hnames', horigin,
    hlead.walk_append ⟨last, List.mem_singleton_self last, hne⟩] at hok
  obtain ⟨hname, hsize⟩ := walk_singleton hok hdir
  obtain rfl | ⟨-, hsame⟩ := hlast
  · exact absurd rfl hname.2.2
  · exact ⟨last, ⟨hproper, hname, hsize, front, left, hnames', horigin ▸ hlead⟩, hsame⟩

theorem EndsIn.node (h : t.EndsIn path dir name) {n : Node}
    (hfind : t.find? (dir ++ [name]) = some n) (hlink : ∀ text, n ≠ .link text) :
    t.node path = .ok n := by
  have hplain : ∀ text, t.find? (dir ++ [name]) ≠ some (.link text) :=
    fun text htext => hlink text (Option.some.inj (hfind.symm.trans htext))
  rw [Tree.node, h.resolve (.inr hplain), there, hfind]

theorem EndsIn.read (h : t.EndsIn path dir name) {content : Bytes}
    (hfile : t.find? (dir ++ [name]) = some (.file content)) :
    t.read path = .ok content := by
  refine read_eq_ok_iff.mpr ⟨dir ++ [name], ?_⟩
  rw [h.resolve (.inr (by simp [hfile])), there, hfile]

/-- The path itself is that of a link, wherever it leads. -/
def IsLink (t : Tree) (path : String) : Prop :=
  ∃ l text, t.resolve .name path = .ok (.node l (.link text))

theorem EndsIn.find?_of_read (h : t.EndsIn path dir name) (hlink : ¬t.IsLink path) {content : Bytes}
    (hread : t.read path = .ok content) : t.find? (dir ++ [name]) = some (.file content) := by
  obtain ⟨c, hfile⟩ | ⟨text, htext, -⟩ := h.replaceable_of_read hread
  · obtain rfl := Except.ok.inj ((h.read hfile).symm.trans hread)
    exact hfile
  · exact absurd ⟨_, text, by rw [h.resolve (.inl rfl), there, htext]⟩ hlink

theorem not_isLink (h : ∀ l text, t.find? l ≠ some (.link text)) : ¬t.IsLink path := by
  rintro ⟨l, text, hlink⟩
  obtain ⟨dir, name, hends⟩ := exists_endsIn hlink (by simp)
  have hthere := Except.ok.inj ((hends.resolve (.inl rfl)).symm.trans hlink)
  exact h _ text (there_eq_node_iff.mp hthere).2

theorem EndsIn.writable_of_resolve (h : t.EndsIn path dir name) (hlink : ¬t.IsLink path)
    (hok : t.resolve .creation path = .ok target) (hdir : ∀ l, target ≠ .node l .directory) :
    t.Writable (dir ++ [name]) := by
  cases hfind : t.find? (dir ++ [name]) with
  | none => exact .inl hfind
  | some n =>
    cases n with
    | file content => exact .inr ⟨content, hfind⟩
    | link text =>
      exact absurd ⟨_, text, by rw [h.resolve (.inl rfl), there_eq_node_iff.mpr ⟨rfl, hfind⟩]⟩ hlink
    | directory =>
      have hthere := Except.ok.inj (hok.symm.trans (h.resolve (.inr (by simp [hfind]))))
      exact absurd (hthere.trans (there_eq_node_iff.mpr ⟨rfl, hfind⟩)) (hdir _)

theorem EndsIn.write (h : t.EndsIn path dir name) (hwritable : t.Writable (dir ++ [name]))
    (content : Bytes) :
    t.write path content = .ok (t.put (dir ++ [name]) (.file content)) := by
  unfold Tree.write
  obtain hnone | ⟨c, hfile⟩ := hwritable
  · rw [h.resolve (.inr (by simp [hnone])), there, hnone]
  · rw [h.resolve (.inr (by simp [hfile])), there, hfile]

theorem EndsIn.rename (h : t.EndsIn path dir name) {newPath : String} {newDir : Location}
    {newName : String} (hnew : t.EndsIn newPath newDir newName) {n : Node}
    (hfind : t.find? (dir ++ [name]) = some n)
    (hplace : t.find? (newDir ++ [newName]) ≠ some .directory) :
    t.rename path newPath = .ok (if newDir ++ [newName] = dir ++ [name] then t
      else (t.erase (dir ++ [name])).put (newDir ++ [newName]) n) := by
  unfold Tree.rename
  rw [h.resolve (.inl rfl), hnew.resolve (.inl rfl), there, hfind, there]
  cases hplaced : t.find? (newDir ++ [newName]) with
  | none =>
    have hne : newDir ++ [newName] ≠ dir ++ [name] := fun he => by simp [he, hfind] at hplaced
    simp only [hne, if_false]
  | some n' =>
    cases n' with
    | directory => exact absurd hplaced hplace
    | file | link => exact (apply_ite Except.ok ..).symm

end Ends

end Tree

end Provision
