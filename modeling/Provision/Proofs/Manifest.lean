import Provision.Proofs.Files.Walk
import Provision.Proofs.Formats
import Provision.Proofs.World

/-!
What a new status makes of a manifest. It is written beside the manifest and moved there, so that
the file holds the old machine or the new one and nothing between.
-/
namespace Provision

open Timed (exec)

/-- The store does to the file what a new status does to it, and logs it at most. -/
theorem MachineStore.exec_file (path : String) (m : Machine) (u : Timeline Tree) : ∃ log,
    exec (MachineStore.file path m) u =
      (.ok (Manifest.updateStatus path m u.world).1,
        ⟨u.now, log, (Manifest.updateStatus path m u.world).2⟩) := by
  unfold MachineStore.file
  rw [Timed.exec_bind, Timed.exec_update]
  cases (Manifest.updateStatus path m u.world).1 with
  | error e => exact ⟨u.log, rfl⟩
  | ok _ => exact ⟨_, rfl⟩

namespace Manifest

open Provision.Tree (EndsIn Leads SameWays origin)

/-- Where a machine is written before it takes the place of the manifest. -/
def temporary (path : String) : String := Path.withExtension path "tmp"

/-- A manifest, or a link to it, and a place beside it where a file may be made. -/
structure Stands (t : Tree) (path : String) (dir : Location) (name last : String) : Prop where
  manifest : t.EndsIn path dir name
  beside : t.EndsIn (temporary path) dir last
  distinct : last = name → temporary path = path
  replaceable : t.Replaceable dir name
  writable : t.Writable (dir ++ [last])

section Places

variable {t : Tree} {path : String} {dir : Location} {name last : String} {m : Machine}

theorem load_eq_ok_iff :
    load path t = .ok m ↔ ∃ content, t.read path = .ok content ∧
      Machine.codec.decodeBytes content = .ok m := by
  unfold load
  cases t.read path with
  | error e => simp
  | ok content =>
    cases hdecode : Machine.codec.decodeBytes content <;> simp [hdecode]

/-- Beside a manifest nothing can be written, or there is a place for it. -/
theorem exists_stands {content : Bytes} (hread : t.read path = .ok content)
    (hlink : ¬t.IsLink (temporary path)) :
    (∃ e, ∀ content, t.write (temporary path) content = .error e) ∨
      ∃ dir name last, Stands t path dir name last := by
  obtain ⟨l, hresolve⟩ := Tree.read_eq_ok_iff.mp hread
  obtain ⟨dir, name, hends⟩ := Tree.exists_endsIn hresolve (by simp)
  cases hcreation : t.resolve .creation (temporary path) with
  | error e => exact .inl ⟨e, fun content => by rw [Tree.write, hcreation]⟩
  | ok target =>
    by_cases hdir : ∃ l, target = .node l .directory
    · obtain ⟨l, rfl⟩ := hdir
      exact .inl ⟨.isDirectory, fun content => by rw [Tree.write, hcreation]⟩
    · simp only [not_exists] at hdir
      obtain ⟨last, hlast, hdistinct⟩ := hends.withExtension (by decide) (by decide) hcreation hdir
      exact .inr ⟨dir, name, last, hends, hlast, hdistinct, hends.replaceable_of_read hread,
        hlast.writable_of_resolve hlink hcreation hdir⟩

/-- The machine has come into the file, and what was beside it is gone. -/
def replaced (t : Tree) (dir : Location) (name last : String) (content : Bytes) : Tree :=
  (t.erase (dir ++ [last])).put (dir ++ [name]) (.file content)

theorem find?_replaced (l : Location) (content : Bytes) :
    (replaced t dir name last content).find? l =
      if l = dir ++ [name] then some (.file content)
      else if l = dir ++ [last] then none
      else t.find? l := by
  rw [replaced, Tree.find?_put, Tree.find?_erase]

theorem Stands.sameWays_written (h : Stands t path dir name last) (content : Bytes) :
    t.SameWays (t.put (dir ++ [last]) (.file content)) :=
  .of_find? rfl h.writable h.replaceable fun l hl _ => by rw [Tree.find?_put, if_neg hl]

theorem Stands.sameWays_replaced (h : Stands t path dir name last) (content : Bytes) :
    t.SameWays (replaced t dir name last content) :=
  .of_find? rfl h.writable h.replaceable fun l hl hl' => by
    rw [find?_replaced, if_neg hl', if_neg hl]

theorem Stands.replace_eq (h : Stands t path dir name last) (m : Machine) :
    replace path m t = (.ok (), replaced t dir name last (content m)) := by
  have hways := h.sameWays_written (content m)
  have hplace :
      (t.put (dir ++ [last]) (.file (content m))).find? (dir ++ [name]) ≠ some .directory := by
    rw [Tree.find?_put]
    split
    · simp
    · exact h.replaceable.ne_directory
  have hrename :=
    (h.beside.mono hways).rename (h.manifest.mono hways) (by rw [Tree.find?_put, if_pos rfl]) hplace
  unfold replace
  simp only
  rw [← temporary, h.beside.write h.writable]
  simp only [hrename, replaced]
  split
  next hsame => rw [hsame, Tree.put_erase_self]
  next => rw [Tree.erase_put_self]

theorem Stands.stands_replaced (h : Stands t path dir name last) (content : Bytes) :
    Stands (replaced t dir name last content) path dir name last where
  manifest := h.manifest.mono (h.sameWays_replaced content)
  beside := h.beside.mono (h.sameWays_replaced content)
  distinct := h.distinct
  replaceable := .inl ⟨content, by simp [find?_replaced]⟩
  writable := by
    by_cases hl : dir ++ [last] = dir ++ [name]
    · exact .inr ⟨content, by simp [find?_replaced, hl]⟩
    · exact .inl (by simp only [find?_replaced, hl, if_true, if_false])

theorem Stands.read_replaced (h : Stands t path dir name last) (content : Bytes) :
    (replaced t dir name last content).read path = .ok content :=
  (h.stands_replaced content).manifest.read (by rw [find?_replaced, if_pos rfl])

theorem replaced_replaced (content content' : Bytes) :
    replaced (replaced t dir name last content) dir name last content' =
      replaced t dir name last content' := by
  unfold replaced
  by_cases hl : dir ++ [name] = dir ++ [last]
  · rw [hl, Tree.erase_put_self, Tree.erase_erase]
  · rw [Tree.erase_put_of_ne _ _ hl, Tree.erase_erase, Tree.put_put]

end Places

section Updates

variable {t : Tree} {path : String} {dir : Location} {name last : String} {m stored : Machine}

/-- What comes of a new status: nothing, or the stored machine with it. -/
inductive Updates (path : String) (m : Machine) (t : Tree) : Except StoreError Unit → Tree → Prop
  | unread {e : StoreError} (hload : load path t = .error e) : Updates path m t (.error e) t
  | mismatched {stored : Machine} (hload : load path t = .ok stored)
      (hmetadata : stored.metadata ≠ m.metadata) :
      Updates path m t (.error (mismatch path stored m)) t
  | unwritten {stored : Machine} (hload : load path t = .ok stored)
      (hmetadata : stored.metadata = m.metadata) (e : FileFault) :
      Updates path m t (.error (.io e)) t
  | written {stored : Machine} {dir : Location} {name last : String}
      (hload : load path t = .ok stored) (hmetadata : stored.metadata = m.metadata)
      (hstands : Stands t path dir name last) :
      Updates path m t (.ok ())
        (replaced t dir name last (content { stored with status := m.status }))

theorem Stands.updateStatus_eq (h : Stands t path dir name last) (hload : load path t = .ok stored)
    (hmetadata : stored.metadata = m.metadata) :
    updateStatus path m t =
      (.ok (), replaced t dir name last (content { stored with status := m.status })) := by
  simp only [updateStatus, hload, hmetadata, ne_eq, not_true_eq_false, if_false]
  exact h.replace_eq _

theorem updateStatus_updates (hlink : ¬t.IsLink (temporary path)) (m : Machine) :
    Updates path m t (updateStatus path m t).1 (updateStatus path m t).2 := by
  cases hload : load path t with
  | error e =>
    have hupdate : updateStatus path m t = (.error e, t) := by simp only [updateStatus, hload]
    exact hupdate ▸ .unread hload
  | ok stored =>
    by_cases hmetadata : stored.metadata = m.metadata
    · obtain ⟨content, hread, -⟩ := load_eq_ok_iff.mp hload
      obtain ⟨e, hwrite⟩ | ⟨dir, name, last, hstands⟩ := exists_stands hread hlink
      · have hupdate : updateStatus path m t = (.error (.io e), t) := by
          simp only [updateStatus, hload, hmetadata, ne_eq, not_true_eq_false, if_false, replace]
          rw [← temporary, hwrite]
        exact hupdate ▸ .unwritten hload hmetadata e
      · exact hstands.updateStatus_eq hload hmetadata ▸ .written hload hmetadata hstands
    · have hupdate : updateStatus path m t = (.error (mismatch path stored m), t) := by
        simp only [updateStatus, hload, hmetadata, ne_eq, not_false_eq_true, if_true]
      exact hupdate ▸ .mismatched hload hmetadata

theorem Stands.load_replaced (h : Stands t path dir name last) (m : Machine) :
    load path (replaced t dir name last (content m)) = .ok m :=
  load_eq_ok_iff.mpr ⟨_, h.read_replaced _, decodeBytes_content m⟩

theorem load_ne_conflict {text : String} : load path t ≠ .error (.conflict text) := by
  unfold load
  split
  · simp
  · split <;> simp

theorem Updates.conflict_iff {r : Except StoreError Unit} {t' : Tree} (h : Updates path m t r t') :
    (∃ text, r = .error (.conflict text)) ↔ ∃ stored, load path t = .ok stored ∧
      stored.metadata ≠ m.metadata := by
  cases h with
  | unread hload => simpa [hload] using fun text he => load_ne_conflict (he ▸ hload)
  | mismatched hload hmetadata => simpa [hload, mismatch] using hmetadata
  | unwritten hload hmetadata => simp [hload, hmetadata]
  | written hload hmetadata => simp [hload, hmetadata]

theorem Updates.eq_of_error {e : StoreError} {t' : Tree} (h : Updates path m t (.error e) t') :
    t' = t := by
  cases h <;> rfl

theorem Updates.exists_of_ok {t' : Tree} (h : Updates path m t (.ok ()) t') :
    ∃ stored dir name last, load path t = .ok stored ∧ stored.metadata = m.metadata ∧
      Stands t path dir name last ∧
      t' = replaced t dir name last (content { stored with status := m.status }) := by
  cases h with
  | @written stored dir name last hload hmetadata hstands =>
    exact ⟨stored, dir, name, last, hload, hmetadata, hstands, rfl⟩

/-- The status that is written last is all that is left of several. -/
theorem Stands.updateStatus_replaced (h : Stands t path dir name last)
    (hload : load path t = .ok stored) (hmetadata : stored.metadata = m.metadata)
    (st : MachineStatus) :
    updateStatus path m (replaced t dir name last (content { stored with status := st })) =
      updateStatus path m t := by
  have hnext := h.load_replaced { stored with status := st }
  rw [h.updateStatus_eq hload hmetadata, (h.stands_replaced _).updateStatus_eq hnext hmetadata,
    replaced_replaced]

theorem Stands.vacant_replaced (h : Stands t path dir name last) (hdistinct : temporary path ≠ path)
    (content : Bytes) :
    (replaced t dir name last content).resolve .name (temporary path) =
      .ok (.vacant (dir ++ [last])) := by
  have hne : dir ++ [last] ≠ dir ++ [name] := by simpa using mt h.distinct hdistinct
  have hnone : (replaced t dir name last content).find? (dir ++ [last]) = none := by
    rw [find?_replaced, if_neg hne, if_pos rfl]
  rw [(h.stands_replaced content).beside.resolve (.inl rfl), Tree.there, hnone]

/-- Whatever comes into the file beside it leaves a manifest alone, also when the writing breaks
off. -/
theorem read_written (hdistinct : temporary path ≠ path) (hpath : ¬t.IsLink path)
    (htemporary : ¬t.IsLink (temporary path)) {content part : Bytes}
    (hread : t.read path = .ok content) {t' : Tree}
    (hwrite : t.write (temporary path) part = .ok t') :
    t'.read path = .ok content := by
  obtain ⟨e, herror⟩ | ⟨dir, name, last, h⟩ := exists_stands hread htemporary
  · cases (herror part).symm.trans hwrite
  · obtain rfl := Except.ok.inj ((h.beside.write h.writable part).symm.trans hwrite)
    have hne : dir ++ [name] ≠ dir ++ [last] := by simpa using Ne.symm (mt h.distinct hdistinct)
    have hfile : t.find? (dir ++ [name]) = some (.file content) :=
      h.manifest.find?_of_read hpath hread
    refine (h.manifest.mono (h.sameWays_written part)).read ?_
    rw [Tree.find?_put, if_neg hne, hfile]

/-- A new status for a manifest that is no link, with no link beside it. It is refused exactly where
the file holds another machine; what fails changes nothing, and what has come into the file beside
the manifest until then does not show in it; and what succeeds puts the status, and nothing else,
into the machine that was stored, leaves nothing beside it, and is undone by the next status. -/
theorem status_update_law (path : String) (t : Tree) (hdistinct : temporary path ≠ path)
    (hpath : ¬t.IsLink path) (htemporary : ¬t.IsLink (temporary path)) (m : Machine) :
    ((∃ text, (updateStatus path m t).1 = .error (.conflict text)) ↔
        ∃ stored, load path t = .ok stored ∧ stored.metadata ≠ m.metadata) ∧
      (∀ e, (updateStatus path m t).1 = .error e → (updateStatus path m t).2 = t) ∧
      (∀ content part t', t.read path = .ok content → t.write (temporary path) part = .ok t' →
        t'.read path = .ok content) ∧
      (∀ t', updateStatus path m t = (.ok (), t') →
        (∃ stored, load path t = .ok stored ∧
          load path t' = .ok { stored with status := m.status }) ∧
          (∃ l, t'.resolve .name (temporary path) = .ok (.vacant l)) ∧
          updateStatus path m t' = (.ok (), t') ∧
          ∀ m', m'.metadata = m.metadata →
            ∃ t'', updateStatus path m' t' = (.ok (), t'') ∧
              updateStatus path m' t = (.ok (), t'')) ∧
      ∀ u : Timeline Tree, u.world = t → ∃ log,
        exec (MachineStore.file path m) u = (.ok (updateStatus path m t).1,
          ⟨u.now, log, (updateStatus path m t).2⟩) := by
  have hupdates := updateStatus_updates htemporary m
  refine ⟨hupdates.conflict_iff, fun e he => ?_, fun content part t' hread hwrite => ?_,
    fun t' ht' => ?_, ?_⟩
  · rw [he] at hupdates
    exact hupdates.eq_of_error
  · exact read_written hdistinct hpath htemporary hread hwrite
  · rw [ht'] at hupdates
    obtain ⟨stored, dir, name, last, hload, hmetadata, hstands, rfl⟩ := hupdates.exists_of_ok
    refine ⟨⟨stored, hload, hstands.load_replaced _⟩, ⟨_, hstands.vacant_replaced hdistinct _⟩,
      ?_, fun m' hm' => ?_⟩
    · rw [hstands.updateStatus_replaced hload hmetadata, ht']
    · refine ⟨_, ?_, hstands.updateStatus_eq hload (hmetadata.trans hm'.symm)⟩
      rw [hstands.updateStatus_replaced hload (hmetadata.trans hm'.symm)]
      exact hstands.updateStatus_eq hload (hmetadata.trans hm'.symm)
  · rintro u rfl
    exact MachineStore.exec_file path m u

end Updates

section Directory

/-- A working directory at the root with one file in it. -/
def directoryOf (content : Bytes) : Tree := ⟨[(["machine.json"], .file content)], []⟩

theorem find?_directoryOf (content : Bytes) (l : Location) :
    (directoryOf content).find? l = if l = ["machine.json"] then
      some (.file content) else none := by
  simp only [directoryOf, Tree.find?, List.lookup_cons, List.lookup_nil]
  split <;> simp_all

theorem not_isLink_directoryOf (content : Bytes) (path : String) :
    ¬(directoryOf content).IsLink path :=
  Tree.not_isLink fun l text => by rw [find?_directoryOf]; split <;> simp

theorem endsIn_home {t : Tree} (hhome : t.home = []) {name : String} (hproper : Tree.IsProper name)
    (hname : Path.IsName name) (hsize : name.utf8ByteSize ≤ Tree.maxName)
    (hplain : Path.names name = [name]) : t.EndsIn name [] name := by
  refine ⟨hproper, hname, hsize, [], Tree.maxLinks, hplain, ?_⟩
  have horigin : origin t.home name = [] := by simp [origin, hhome]
  rw [horigin]
  exact .nil ..

theorem endsIn_manifest {t : Tree} (hhome : t.home = []) :
    t.EndsIn "machine.json" [] "machine.json" :=
  endsIn_home hhome (by decide +kernel) (by decide) (by decide) (by decide +kernel)

theorem endsIn_temporary {t : Tree} (hhome : t.home = []) :
    t.EndsIn (temporary "machine.json") [] "machine.tmp" := by
  have htemporary : temporary "machine.json" = "machine.tmp" := by decide +kernel
  rw [htemporary]
  exact endsIn_home hhome (by decide +kernel) (by decide) (by decide) (by decide +kernel)

theorem stands_directoryOf (content : Bytes) :
    Stands (directoryOf content) "machine.json" [] "machine.json" "machine.tmp" where
  manifest := endsIn_manifest rfl
  beside := endsIn_temporary rfl
  distinct := by decide
  replaceable := .inl ⟨content, by rw [find?_directoryOf]; rfl⟩
  writable := .inl (by rw [find?_directoryOf]; rfl)

theorem read_directoryOf (content : Bytes) :
    (directoryOf content).read "machine.json" = .ok content :=
  (stands_directoryOf content).manifest.read (by rw [find?_directoryOf]; rfl)

/-- The small machine, after its instance could not be made. -/
def failed : Machine :=
  { Machine.small with
    status := { (default : MachineStatus) with errorReason := some .createError } }

theorem status_update_law_directoryOf :
    temporary "machine.json" ≠ "machine.json" ∧
      ¬(directoryOf (content .small)).IsLink "machine.json" ∧
      ¬(directoryOf (content .small)).IsLink (temporary "machine.json") ∧
      ∃ t', updateStatus "machine.json" failed (directoryOf (content .small)) = (.ok (), t') ∧
        load "machine.json" t' = .ok failed ∧
          (∃ l, t'.resolve .name (temporary "machine.json") = .ok (.vacant l)) ∧
        ∃ t'', updateStatus "machine.json" .small t' = (.ok (), t'') ∧
          updateStatus "machine.json" .small (directoryOf (content .small)) = (.ok (), t'') := by
  have hdistinct : temporary "machine.json" ≠ "machine.json" := by decide +kernel
  have hload : load "machine.json" (directoryOf (content .small)) = .ok .small :=
    load_eq_ok_iff.mpr ⟨_, read_directoryOf _, decodeBytes_content _⟩
  have hok := (stands_directoryOf _).updateStatus_eq (m := failed) hload rfl
  obtain ⟨-, -, -, hlaw, -⟩ :=
    status_update_law "machine.json" (directoryOf (content .small)) hdistinct
    (not_isLink_directoryOf _ _) (not_isLink_directoryOf _ _) failed
  obtain ⟨⟨stored, hload', hnew⟩, hvacant, -, hagain⟩ := hlaw _ hok
  obtain rfl : .small = stored := Except.ok.inj (hload.symm.trans hload')
  exact ⟨hdistinct, not_isLink_directoryOf _ _, not_isLink_directoryOf _ _, _, hok, hnew,
    hvacant, hagain .small rfl⟩

end Directory

end Manifest

end Provision
