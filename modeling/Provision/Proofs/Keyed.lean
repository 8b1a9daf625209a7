import Provision.Proofs.Lockstep

/-!
The service in memory as seen from one key. Calls for a machine change the instance at its key only;
and two states that show the same at a key answer the calls for a machine there alike, but for the
names of operations.
-/
namespace Provision

open Timed

/-- The instance that a call may make or remove. -/
def Call.target? : Call → Option InstanceKey
  | .insertInstance project zone i => some (project, zone, i.name)
  | .deleteInstance project zone name => some (project, zone, name)
  | .getInstance .. | .getZone .. | .getOperation .. => none

/-- An instance but for its number. -/
def Instance.unnumbered (i : Instance) : Instance := { i with id := none }

namespace Instance

variable {i i' : Instance} (h : i.unnumbered = i'.unnumbered)

include h

theorem name_eq_of_unnumbered : i.name = i'.name := by
  have hname : i.unnumbered.name = i'.unnumbered.name := by rw [h]
  exact hname

/-- What is seen of an instance does not depend on its number. -/
theorem observation?_eq_of_unnumbered : i.observation? = i'.observation? := by
  have hseen : i.unnumbered.observation? = i'.unnumbered.observation? := by rw [h]
  exact hseen

end Instance

/-- One more poll brings operations that are alike equally far. -/
theorem Operation.Alike.poll {N : String → String → Prop} {x x' : TrackedOperation}
    (h : x.operation.Alike N x'.operation) (hremaining : x.remaining = x'.remaining)
    {faults faults' : List OperationFault} (hfaults : faults = faults') :
    (x.poll faults).operation.Alike N (x'.poll faults').operation ∧
      (x.poll faults).remaining = (x'.poll faults').remaining := by
  subst hfaults
  unfold TrackedOperation.poll
  rw [← hremaining]
  split
  · exact ⟨⟨h.name, h.kind, rfl, h.target, h.faults⟩, rfl⟩
  · refine ⟨⟨h.name, h.kind, rfl, h.target, ?_⟩, rfl⟩
    simp only [h.faults]

namespace Mock

/-- Nothing but the instance at the key, the operations and the calls may differ. -/
structure Frame (k : InstanceKey) (m m' : Mock) : Prop where
  instances : ∀ k', k' ≠ k → m'.instances.find? k' = m.instances.find? k'
  failures : m'.failures = m.failures
  missingZones : m'.missingZones = m.missingZones
  pendingPolls : m'.pendingPolls = m.pendingPolls
  operationFaults : m'.operationFaults = m.operationFaults

namespace Frame

variable {k : InstanceKey} {m m' m'' : Mock}

theorem refl (k : InstanceKey) (m : Mock) : m.Frame k m := ⟨fun _ _ => rfl, rfl, rfl, rfl, rfl⟩

theorem trans (h : m.Frame k m') (h' : m'.Frame k m'') : m.Frame k m'' where
  instances k' hk := (h'.instances k' hk).trans (h.instances k' hk)
  failures := h'.failures.trans h.failures
  missingZones := h'.missingZones.trans h.missingZones
  pendingPolls := h'.pendingPolls.trans h.pendingPolls
  operationFaults := h'.operationFaults.trans h.operationFaults

end Frame

theorem noted_frame (k : InstanceKey) (m : Mock) (q : Call) : m.Frame k (m.noted q) :=
  ⟨fun _ _ => rfl, rfl, rfl, rfl, rfl⟩

theorem handle_frame {k : InstanceKey} {m : Mock} {q : Call}
    (hq : ∀ k', q.target? = some k' → k' = k) :
    m.Frame k (m.handle q).2 := by
  cases q with
  | insertInstance project zone i =>
    obtain rfl := hq _ rfl
    simp only [handle]
    split
    · exact .refl _ m
    · exact ⟨fun k' hk => Table.find?_insert_of_ne _ _ hk, rfl, rfl, rfl, rfl⟩
  | deleteInstance project zone name =>
    obtain rfl := hq _ rfl
    simp only [handle]
    split
    · exact ⟨fun k' hk => Table.find?_erase_of_ne _ hk, rfl, rfl, rfl, rfl⟩
    · exact .refl _ m
  | getInstance project zone name =>
    simp only [handle]
    split <;> exact .refl _ m
  | getZone project zone =>
    simp only [handle]
    split <;> exact .refl _ m
  | getOperation project zone operation =>
    simp only [handle]
    split
    · exact ⟨fun _ _ => rfl, rfl, rfl, rfl, rfl⟩
    · exact .refl _ m

/-- A call changes no other instance than its target. -/
theorem reply_frame {k : InstanceKey} {m : Mock} {q : Call}
    (hq : ∀ k', q.target? = some k' → k' = k) :
    m.Frame k (m.reply q).2 := by
  rw [reply_eq]
  split
  · exact noted_frame k m q
  · exact (noted_frame k m q).trans (handle_frame hq)

/-- The two show the same at the key, and are set up alike. -/
structure Akin (k : InstanceKey) (m m' : Mock) : Prop where
  failures : m.failures = m'.failures
  missingZones : m.missingZones = m'.missingZones
  pendingPolls : m.pendingPolls = m'.pendingPolls
  operationFaults : m.operationFaults = m'.operationFaults
  shown : (m.instances.find? k).map Instance.unnumbered =
    (m'.instances.find? k).map Instance.unnumbered

theorem Frame.akin {k k' : InstanceKey} {m m' : Mock} (h : m.Frame k m') (hk : k' ≠ k) :
    m.Akin k' m' where
  failures := h.failures.symm
  missingZones := h.missingZones.symm
  pendingPolls := h.pendingPolls.symm
  operationFaults := h.operationFaults.symm
  shown := by rw [h.instances k' hk]

/-- The name of an operation. -/
def operationName (kind : String) (id : UInt64) : String :=
  "operation-" ++ kind ++ "-" ++ toString id.toNat

/-- Names that differ in their numbers at most. -/
def Renamed (o o' : String) : Prop :=
  ∃ kind i i', o = operationName kind i ∧ o' = operationName kind i'

/-- The operations of these names are equally far, and end alike. -/
def Tracks (m m' : Mock) (o o' : String) : Prop :=
  ∃ x x', m.operations.find? o = some x ∧ m'.operations.find? o' = some x' ∧
    x.remaining = x'.remaining ∧
    x.operation.Alike Renamed x'.operation

/-- Alike replies to requests that start operations. -/
inductive Started (k : InstanceKey) :
    Except ComputeError Operation × Mock → Except ComputeError Operation × Mock → Prop
  | refused {m m' : Mock} (e : ComputeError) (h : m.Akin k m') :
      Started k (.error e, m) (.error e, m')
  | granted {m m' : Mock} {o o' : Operation} (h : m.Akin k m') (hn : Renamed o.name o'.name)
      (ht : m.Tracks m' o.name o'.name) : Started k (.ok o, m) (.ok o', m')

theorem Started.akin {k : InstanceKey} {x x' : Except ComputeError Operation × Mock}
    (h : Started k x x') :
    x.2.Akin k x'.2 := by
  cases h with
  | refused _ h => exact h
  | granted h _ _ => exact h

section Akin

variable {k : InstanceKey} {m m' : Mock}

theorem Akin.noted (h : m.Akin k m') (q q' : Call) : (m.noted q).Akin k (m'.noted q') :=
  ⟨h.failures, h.missingZones, h.pendingPolls, h.operationFaults, h.shown⟩

theorem Akin.isSome_eq (h : m.Akin k m') :
    (m.instances.find? k).isSome = (m'.instances.find? k).isSome := by
  have hs := congrArg Option.isSome h.shown
  rwa [Option.isSome_map, Option.isSome_map] at hs

/-- Calls fail alike when they are made to, so that only their handling matters. -/
theorem Akin.reply {q : Call} {P : Reply q × Mock → Reply q × Mock → Prop} (h : m.Akin k m')
    (herror : ∀ (e : ComputeError) (n n' : Mock), n.Akin k n' → P (.error e, n) (.error e, n'))
    (hhandle : ∀ n n' : Mock, n.Akin k n' → P (n.handle q) (n'.handle q)) :
    P (m.reply q) (m'.reply q) := by
  rw [reply_eq, reply_eq, ← h.failures]
  cases m.failures.find? q.method with
  | some e => exact herror e _ _ (h.noted q q)
  | none => exact hhandle _ _ (h.noted q q)

theorem Akin.start (h : m.Akin k m') (kind target : String) :
    Started k (.ok (m.start kind target).1, (m.start kind target).2)
      (.ok (m'.start kind target).1, (m'.start kind target).2) := by
  have hnames : Renamed (operationName kind (m.nextId + 1)) (operationName kind (m'.nextId + 1)) :=
    ⟨kind, _, _, rfl, rfl⟩
  refine .granted ⟨h.failures, h.missingZones, h.pendingPolls, h.operationFaults, h.shown⟩ hnames ?_
  exact ⟨_, _, Table.find?_insert_self .., Table.find?_insert_self .., h.pendingPolls, hnames,
    rfl, rfl, rfl, rfl⟩

theorem Akin.reply_getZone (h : m.Akin k m') (project zone : String) :
    (m.reply (.getZone project zone)).1 = (m'.reply (.getZone project zone)).1 ∧
      (m.reply (.getZone project zone)).2.Akin k (m'.reply (.getZone project zone)).2 := by
  refine h.reply (q := .getZone project zone) (P := fun x x' => x.1 = x'.1 ∧ x.2.Akin k x'.2)
    (fun e _ _ hn => ⟨rfl, hn⟩) fun n n' hn => ?_
  simp only [handle, hn.missingZones]
  split <;> exact ⟨rfl, hn⟩

theorem Akin.reply_getInstance {project zone name : String} (h : m.Akin (project, zone, name) m') :
    Matched Eq (fun i i' => i.unnumbered = i'.unnumbered)
      (m.reply (.getInstance project zone name)).1
        (m'.reply (.getInstance project zone name)).1 ∧
      (m.reply (.getInstance project zone name)).2.Akin (project, zone, name)
        (m'.reply (.getInstance project zone name)).2 := by
  refine h.reply (q := .getInstance project zone name)
    (P := fun x x' => Matched Eq (fun i i' => i.unnumbered = i'.unnumbered) x.1 x'.1 ∧
      x.2.Akin (project, zone, name) x'.2)
    (fun e _ _ hn => ⟨.error rfl, hn⟩) fun n n' hn => ?_
  have hshown := hn.shown
  simp only [handle]
  cases hi : n.instances.find? (project, zone, name) with
  | none =>
    rw [hi, Option.map_none, eq_comm, Option.map_eq_none_iff] at hshown
    rw [hshown]
    exact ⟨.error rfl, hn⟩
  | some i =>
    rw [hi, Option.map_some, eq_comm, Option.map_eq_some_iff] at hshown
    obtain ⟨i', hi', hnumber⟩ := hshown
    rw [hi']
    exact ⟨.ok hnumber.symm, hn⟩

theorem Akin.reply_insertInstance {project zone : String} {i : Instance}
    (h : m.Akin (project, zone, i.name) m') :
    Started (project, zone, i.name) (m.reply (.insertInstance project zone i))
      (m'.reply (.insertInstance project zone i)) := by
  refine h.reply (q := .insertInstance project zone i) (P := Started (project, zone, i.name))
    (fun e _ _ hn => .refused e hn) fun n n' hn => ?_
  simp only [handle, hn.isSome_eq]
  split
  · exact .refused _ hn
  · refine Akin.start ?_ _ _
    refine ⟨hn.failures, hn.missingZones, hn.pendingPolls, hn.operationFaults, ?_⟩
    rw [Table.find?_insert_self, Table.find?_insert_self]
    rfl

theorem Akin.reply_deleteInstance {project zone name : String}
    (h : m.Akin (project, zone, name) m') :
    Started (project, zone, name) (m.reply (.deleteInstance project zone name))
      (m'.reply (.deleteInstance project zone name)) := by
  refine h.reply (q := .deleteInstance project zone name) (P := Started (project, zone, name))
    (fun e _ _ hn => .refused e hn) fun n n' hn => ?_
  simp only [handle, hn.isSome_eq]
  split
  · refine Akin.start ?_ _ _
    refine ⟨hn.failures, hn.missingZones, hn.pendingPolls, hn.operationFaults, ?_⟩
    rw [Table.find?_erase_self, Table.find?_erase_self]
  · exact .refused _ hn

/-- Operations that are equally far stay so when they are fetched. -/
theorem Akin.reply_getOperation (h : m.Akin k m') (project zone : String) {o o' : String}
    (ht : m.Tracks m' o o') :
    Matched Eq (Operation.Alike Renamed) (m.reply (.getOperation project zone o)).1
        (m'.reply (.getOperation project zone o')).1 ∧
      (m.reply (.getOperation project zone o)).2.Akin k
        (m'.reply (.getOperation project zone o')).2 ∧
      (m.reply (.getOperation project zone o)).2.Tracks
        (m'.reply (.getOperation project zone o')).2 o o' := by
  obtain ⟨x, x', hx, hx', hremaining, halike⟩ := ht
  have hn := h.noted (.getOperation project zone o) (.getOperation project zone o')
  have hmethod :
      (Call.getOperation project zone o).method = (Call.getOperation project zone o').method := rfl
  rw [reply_eq, reply_eq, ← h.failures, ← hmethod]
  cases m.failures.find? (Call.getOperation project zone o).method with
  | some e => exact ⟨.error rfl, hn, x, x', hx, hx', hremaining, halike⟩
  | none =>
    have hfind : (m.noted (.getOperation project zone o)).operations.find? o = some x := hx
    have hfind' : (m'.noted (.getOperation project zone o')).operations.find? o' = some x' := hx'
    have hpolled := halike.poll hremaining hn.operationFaults
    simp only [handle, hfind, hfind']
    refine ⟨.ok hpolled.1,
      ⟨h.failures, h.missingZones, h.pendingPolls, h.operationFaults, h.shown⟩, ?_⟩
    exact ⟨_, _, Table.find?_insert_self .., Table.find?_insert_self .., hpolled.2, hpolled.1⟩

end Akin

end Mock
end Provision
