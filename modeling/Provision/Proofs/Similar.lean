import Mathlib.Data.List.Forall2
import Provision.Proofs.Indistinct
import Provision.Proofs.Mock

/-!
Instances that differ in their boot data at most, and services that do not tell such instances
apart.
-/
namespace Provision

open Timed

/-- What the tables find at a key is related, or neither finds anything. -/
def Table.Rel {κ ν : Type} (R : ν → ν → Prop) (t t' : Table κ ν) : Prop :=
  ∀ k, Option.Rel R (t.find? k) (t'.find? k)

namespace Table.Rel

variable {κ ν : Type} {R : ν → ν → Prop} {t t' : Table κ ν}

theorem refl (hR : ∀ v, R v v) (t : Table κ ν) : t.Rel R t := by
  intro k
  cases t.find? k with
  | none => exact .none
  | some v => exact .some (hR v)

theorem isSome_eq (h : t.Rel R t') (k : κ) : (t.find? k).isSome = (t'.find? k).isSome := by
  have hk := h k
  generalize t.find? k = x at hk
  generalize t'.find? k = x' at hk
  cases hk <;> rfl

theorem insert [DecidableEq κ] (h : t.Rel R t') (k : κ) {v v' : ν} (hv : R v v') :
    (t.insert k v).Rel R (t'.insert k v') := by
  intro l
  by_cases hl : l = k
  · rw [hl, find?_insert_self, find?_insert_self]
    exact .some hv
  · rw [find?_insert_of_ne t v hl, find?_insert_of_ne t' v' hl]
    exact h l

end Table.Rel

namespace Instance

/-- The instance with these boot data ahead of the other metadata. -/
def booting (i : Instance) (data : String) (items : List MetadataItem) : Instance :=
  { i with metadata := some (⟨userDataKey, some data⟩ :: items) }

/-- The same but for the boot data. -/
inductive Similar : Instance → Instance → Prop
  | same (i : Instance) : Similar i i
  | booting (i : Instance) (data data' : String) (items : List MetadataItem) :
      Similar (i.booting data items) (i.booting data' items)

variable {i i' : Instance}

theorem Similar.name_eq (h : i.Similar i') : i.name = i'.name := by
  cases h <;> rfl

theorem Similar.observation?_eq (h : i.Similar i') : i.observation? = i'.observation? := by
  cases h <;> rfl

theorem Similar.created (h : i.Similar i') (id : UInt64) (zone : String) :
    (Mock.created id zone i).Similar (Mock.created id zone i') := by
  cases h with
  | same => exact .same _
  | booting i data data' items => exact .booting (Mock.created id zone i) data data' items

end Instance

/-- The requests of a machine are the same but for the boot data. -/
theorem Machine.similar_request (m : Machine) (project data data' : String) :
    (m.request project data).Similar (m.request project data') :=
  .booting (m.request project data) data data' m.spec.metadata

/-- The same but for the boot data of the instance that is asked for. -/
inductive Call.Similar : Call → Call → Prop
  | same (q : Call) : Similar q q
  | insertion (project zone : String) {i i' : Instance} (h : i.Similar i') :
      Similar (.insertInstance project zone i) (.insertInstance project zone i')

theorem Call.Similar.method_eq {q q' : Call} (h : q.Similar q') : q.method = q'.method := by
  cases h <;> rfl

/-- What making an instance asks of the service does not tell similar instances apart. -/
structure Service.Conceals {σ : Type} (s : Service σ) (L : σ → σ → Prop) : Prop where
  insertion : ∀ (project zone : String) {i i' : Instance}, i.Similar i' →
    Indistinct (α := Except ComputeError Operation) L Eq (s (.insertInstance project zone i))
      (s (.insertInstance project zone i'))
  reading : ∀ project zone name,
    Indistinct (α := Except ComputeError Instance) L (Matched Eq Instance.Similar)
      (s (.getInstance project zone name)) (s (.getInstance project zone name))
  looking : ∀ project zone operation,
    Indistinct (α := Except ComputeError Operation) L Eq (s (.getOperation project zone operation))
      (s (.getOperation project zone operation))

/-- Waiting does not tell what looking does not. -/
theorem Service.wait_indistinct {σ : Type} {s : Service σ} {L : σ → σ → Prop}
    (h : s.Conceals L) (c : PollConfig) (project zone operation : String) :
    Indistinct L Eq (s.wait c project zone operation) (s.wait c project zone operation) := by
  have hcheck :
      Indistinct L Eq (s.check project zone operation) (s.check project zone operation) := by
    unfold check
    refine indistinct_bind_eq (h.looking project zone operation) fun r => ?_
    cases r with
    | error e => exact indistinct_pure rfl
    | ok o => exact indistinct_bind_eq indistinct_log fun _ => indistinct_pure rfl
  unfold wait
  refine indistinct_bind_eq indistinct_log fun _ => ?_
  refine indistinct_bind_eq (poll_indistinct hcheck) fun y => ?_
  match y with
  | .error (.aborted e) => exact indistinct_pure rfl
  | .error (.timeout elapsed attempts last) => exact indistinct_pure rfl
  | .ok (o, attempts) =>
    dsimp only
    split
    · exact indistinct_bind_eq indistinct_log fun _ => indistinct_pure rfl
    · exact indistinct_pure rfl

namespace Mock

/-- The same but for the boot data of instances and of those asked for. -/
inductive Similar : Mock → Mock → Prop
  | mk (m : Mock) {instances instances' : Table InstanceKey Instance} {calls calls' : Array Call}
      (hi : instances.Rel Instance.Similar instances')
      (hc : List.Forall₂ Call.Similar calls.toList calls'.toList) :
      Similar { m with instances, calls } { m with instances := instances', calls := calls' }

variable {m m' : Mock}

namespace Similar

theorem refl (m : Mock) : m.Similar m :=
  .mk m (.refl .same m.instances) (List.forall₂_same.mpr fun q _ => .same q)

theorem calls (h : m.Similar m') : List.Forall₂ Call.Similar m.calls.toList m'.calls.toList := by
  obtain ⟨_, _, hc⟩ := h
  exact hc

theorem noted (h : m.Similar m') {q q' : Call} (hq : q.Similar q') :
    (m.noted q).Similar (m'.noted q') := by
  obtain ⟨m, hi, hc⟩ := h
  refine .mk m hi ?_
  rw [Array.toList_push, Array.toList_push]
  exact List.rel_append hc (.cons hq .nil)

theorem start (h : m.Similar m') (kind target : String) :
    (m.start kind target).1 = (m'.start kind target).1 ∧
      (m.start kind target).2.Similar (m'.start kind target).2 := by
  obtain ⟨m, hi, hc⟩ := h
  exact ⟨rfl, .mk (m.start kind target).2 hi hc⟩

theorem handle_insertInstance (h : m.Similar m') (project zone : String) {i i' : Instance}
    (hi : i.Similar i') :
    (m.handle (.insertInstance project zone i)).1 =
      (m'.handle (.insertInstance project zone i')).1 ∧
      (m.handle (.insertInstance project zone i)).2.Similar
        (m'.handle (.insertInstance project zone i')).2 := by
  obtain ⟨m, hinstances, hcalls⟩ := h
  have hsome := hinstances.isSome_eq (project, zone, i.name)
  -- Whether the name is taken does not depend on the boot data.
  simp only [handle, ← hi.name_eq, ← hsome]
  split
  · exact ⟨rfl, .mk m hinstances hcalls⟩
  · have hput := hinstances.insert (project, zone, i.name) (hi.created (m.nextId + 1) zone)
    have hstart := start (.mk { m with nextId := m.nextId + 1 } hput hcalls) "insert" i.name
    exact ⟨congrArg Except.ok hstart.1, hstart.2⟩

theorem handle_getInstance (h : m.Similar m') (project zone name : String) :
    Matched Eq Instance.Similar (m.handle (.getInstance project zone name)).1
        (m'.handle (.getInstance project zone name)).1 ∧
      (m.handle (.getInstance project zone name)).2.Similar
        (m'.handle (.getInstance project zone name)).2 := by
  obtain ⟨m, hinstances, hcalls⟩ := h
  have hfound := hinstances (project, zone, name)
  simp only [handle]
  generalize Table.find? _ _ = x at hfound ⊢
  generalize Table.find? _ _ = x' at hfound ⊢
  cases hfound with
  | none => exact ⟨.error rfl, .mk m hinstances hcalls⟩
  | some hi => exact ⟨.ok hi, .mk m hinstances hcalls⟩

theorem handle_getOperation (h : m.Similar m') (project zone operation : String) :
    (m.handle (.getOperation project zone operation)).1 =
      (m'.handle (.getOperation project zone operation)).1 ∧
      (m.handle (.getOperation project zone operation)).2.Similar
        (m'.handle (.getOperation project zone operation)).2 := by
  obtain ⟨m, hinstances, hcalls⟩ := h
  simp only [handle]
  cases m.operations.find? operation with
  | none => exact ⟨rfl, .mk m hinstances hcalls⟩
  | some o =>
    let operations := m.operations.insert operation (o.poll m.operationFaults)
    exact ⟨rfl, .mk { m with operations } hinstances hcalls⟩

end Similar

/-- A call that is made to fail fails alike, and else it is handled. -/
theorem Similar.reply {q q' : Call} {V : Reply q → Reply q' → Prop} (hq : q.Similar q')
    (herror : ∀ e, V (.error e) (.error e))
    (hhandle : ∀ {n n' : Mock}, n.Similar n' →
      V (n.handle q).1 (n'.handle q').1 ∧ (n.handle q).2.Similar (n'.handle q').2)
    (h : m.Similar m') :
    V (m.reply q).1 (m'.reply q').1 ∧ (m.reply q).2.Similar (m'.reply q').2 := by
  have hn := h.noted hq
  have hf : m'.failures.find? q'.method = m.failures.find? q.method := by
    obtain ⟨m, _, _⟩ := h
    rw [hq.method_eq]
  rw [reply_eq, reply_eq, hf]
  cases m.failures.find? q.method with
  | some e => exact ⟨herror e, hn⟩
  | none => exact hhandle hn

theorem service_conceals : service.Conceals Similar where
  insertion project zone i i' hi := by
    have hreply : ∀ ⦃m m' : Mock⦄, m.Similar m' →
        (m.reply (.insertInstance project zone i)).1 =
          (m'.reply (.insertInstance project zone i')).1 ∧
          (m.reply (.insertInstance project zone i)).2.Similar
            (m'.reply (.insertInstance project zone i')).2 :=
      fun m m' h => h.reply (.insertion project zone hi) (fun _ => rfl) fun hn =>
        hn.handle_insertInstance project zone hi
    unfold service
    refine indistinct_bind_eq (indistinct_update hreply) fun r => ?_
    cases r with
    | error e => exact indistinct_pure rfl
    | ok o =>
      simp only [hi.name_eq]
      exact indistinct_bind_eq indistinct_log fun _ => indistinct_pure rfl
  reading project zone name := by
    unfold service
    refine indistinct_bind (indistinct_update fun m m' h =>
      h.reply (.same _) (fun _ => .error rfl) fun hn =>
      hn.handle_getInstance project zone name) fun r r' hr => ?_
    exact indistinct_pure hr
  looking project zone operation := by
    unfold service
    refine indistinct_bind_eq (indistinct_update fun m m' h =>
      h.reply (.same _) (fun _ => rfl) fun hn =>
      hn.handle_getOperation project zone operation) fun r => ?_
    exact indistinct_pure rfl

end Mock

end Provision
