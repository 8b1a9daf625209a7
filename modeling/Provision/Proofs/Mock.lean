import Provision.Compute.Mock
import Provision.Proofs.Service

/-!
The service in memory answers at once. Only an insertion or a removal changes its instances; all
else leaves them, the missing zones and the set failures as they are.
-/
namespace Provision.Mock

open Timed

/-- The mock after it has kept a call. -/
def noted (m : Mock) (q : Call) : Mock := { m with calls := m.calls.push q }

/-- How many insertions were asked for. -/
def insertions (m : Mock) : Nat := m.callCount Method.insertInstance.name

/-- How many looks at operations were asked for. -/
def lookups (m : Mock) : Nat := m.callCount Method.getOperation.name

section Replies

variable {m m' : Mock} {q : Call}

theorem note_ends {stop : Halt → Timeline Mock → Prop} {message project zone name : String}
    {t : Timeline Mock} :
    Ends stop (note message project zone name) t fun _ u => u.now = t.now ∧ u.world = t.world :=
  ends_log

theorem service_ends {stop : Halt → Timeline Mock → Prop} {t : Timeline Mock} (q : Call) :
    Ends stop (service q) t fun r u => u.now = t.now ∧ (r, u.world) = t.world.reply q := by
  have hnoted : ∀ (v : Timeline Mock) (r : Reply q) (message project zone name : String),
      v.now = t.now ∧ (r, v.world) = t.world.reply q →
      Ends stop (do note message project zone name; return r) v fun r u =>
        u.now = t.now ∧ (r, u.world) = t.world.reply q := by
    intro v r message project zone name hv
    refine ends_bind note_ends fun _ u ⟨hn, hw⟩ => ends_pure ?_
    rw [hn, hw]
    exact hv
  unfold service
  refine ends_bind (ends_update _) fun r v hv => ?_
  cases q with
  | insertInstance project zone i =>
    cases r with
    | error e => exact ends_pure hv
    | ok o => exact hnoted _ _ _ _ _ _ hv
  | deleteInstance project zone name =>
    cases r with
    | error e => exact ends_pure hv
    | ok o => exact hnoted _ _ _ _ _ _ hv
  | getInstance project zone name => exact ends_pure hv
  | getZone project zone => exact ends_pure hv
  | getOperation project zone operation => exact ends_pure hv

theorem service_answers : service.Answers := by
  intro q t
  refine (service_ends q).weaken fun r u hu => ?_
  have hn := congrArg Instant.nanos hu.1
  omega

/-- A step of the service is the reply of the mock. -/
theorem reply_of_step {r : Reply q} (h : service.Step q m r m') : (r, m') = m.reply q := by
  obtain ⟨t, u, he, rfl, rfl⟩ := h
  have hends : Ends never (service q) t fun r u => u.now = t.now ∧ (r, u.world) = t.world.reply q :=
    service_ends q
  obtain ⟨r', u', he', _, hu⟩ := hends.returns
  rw [he] at he'
  cases he'
  exact hu

theorem reply_eq (q : Call) :
    m.reply q =
      match m.failures.find? q.method with
      | some e => (.error e, m.noted q)
      | none => (m.noted q).handle q := rfl

theorem reply_eq_handle (hf : m.failures.find? q.method = none) :
    m.reply q = (m.noted q).handle q := by
  rw [reply_eq, hf]

theorem callCount_noted (q : Call) (k : Method) :
    (m.noted q).callCount k.name = m.callCount k.name + if q.method = k then 1 else 0 := by
  unfold callCount noted
  rw [Array.toList_push, List.countP_append, List.countP_singleton]
  cases q <;> cases k <;> rfl

theorem lookups_noted (hq : q.method ≠ .getOperation) : (m.noted q).lookups = m.lookups := by
  rw [lookups, callCount_noted, if_neg hq]
  rfl

end Replies

/-- No instance, missing zone or failure differs between the two, and no more insertions were asked
for. -/
structure Alike (m m' : Mock) : Prop where
  instances : m'.instances = m.instances
  failures : m'.failures = m.failures
  missingZones : m'.missingZones = m.missingZones
  insertions : m'.insertions = m.insertions

namespace Alike

variable {m m' m'' : Mock}

theorem refl (m : Mock) : m.Alike m := ⟨rfl, rfl, rfl, rfl⟩

theorem trans (h : m.Alike m') (h' : m'.Alike m'') : m.Alike m'' where
  instances := h'.instances.trans h.instances
  failures := h'.failures.trans h.failures
  missingZones := h'.missingZones.trans h.missingZones
  insertions := h'.insertions.trans h.insertions

end Alike

/-- Nothing is set to fail, and the zone is there. -/
structure Serves (m : Mock) (project zone : String) : Prop where
  failures : m.failures = ∅
  zone : (project, zone) ∉ m.missingZones

/-- The zone is there, and looks at it and at its instances do not fail. -/
structure Shows (m : Mock) (project zone : String) : Prop where
  zone : (project, zone) ∉ m.missingZones
  zoning : m.failures.find? .getZone = none
  reading : m.failures.find? .getInstance = none

section Serving

variable {m m' : Mock} {project zone : String}

theorem Serves.of_alike (h : m.Serves project zone) (ha : m.Alike m') : m'.Serves project zone where
  failures := ha.failures.trans h.failures
  zone := by
    rw [ha.missingZones]
    exact h.zone

theorem Serves.find?_failures (h : m.Serves project zone) (method : Method) :
    m.failures.find? method = none := by
  rw [h.failures, Table.find?_empty]

theorem Serves.shows (h : m.Serves project zone) : m.Shows project zone :=
  ⟨h.zone, h.find?_failures _, h.find?_failures _⟩

theorem Shows.of_alike (h : m.Shows project zone) (ha : m.Alike m') : m'.Shows project zone := by
  obtain ⟨hzone, hzoning, hreading⟩ := h
  rw [← ha.missingZones] at hzone
  rw [← ha.failures] at hzoning hreading
  exact ⟨hzone, hzoning, hreading⟩

end Serving

section Reads

variable {m m' : Mock}

theorem noted_alike {q : Call} (hq : q.method ≠ .insertInstance) : m.Alike (m.noted q) where
  instances := rfl
  failures := rfl
  missingZones := rfl
  insertions := by
    rw [Mock.insertions, callCount_noted, if_neg hq]
    rfl

theorem handle_getOperation_alike (project zone operation : String) :
    m.Alike (m.handle (.getOperation project zone operation)).2 := by
  simp only [handle]
  cases m.operations.find? operation with
  | none => exact .refl m
  | some o => exact ⟨rfl, rfl, rfl, rfl⟩

theorem reply_getOperation_alike (project zone operation : String) :
    m.Alike (m.reply (.getOperation project zone operation)).2 := by
  have hn : m.Alike (m.noted (.getOperation project zone operation)) := noted_alike nofun
  rw [reply_eq]
  split
  next => exact hn
  next => exact hn.trans (handle_getOperation_alike project zone operation)

/-- Looks at operations, in any number, leave the mock alike. -/
theorem polls_alike {project zone operation : String} {rs : List (Except ComputeError Operation)}
    (h : service.Steps m (Service.polls project zone operation rs) m') : m.Alike m' := by
  induction rs generalizing m with
  | nil =>
    cases h
    exact .refl _
  | cons r rs ih =>
    obtain ⟨⟩ | ⟨first, rest⟩ := h
    have hr := reply_of_step first
    have ha := reply_getOperation_alike (m := m) project zone operation
    rw [← hr] at ha
    exact ha.trans (ih rest)

theorem reply_getInstance (hf : m.failures.find? .getInstance = none)
    {project zone name : String} {i : Instance}
    (hi : m.instances.find? (project, zone, name) = some i) :
    m.reply (.getInstance project zone name) =
      (.ok i, m.noted (.getInstance project zone name)) := by
  rw [reply_eq_handle hf]
  have hn : (m.noted (.getInstance project zone name)).instances.find? (project, zone,
    name) = some i := hi
  simp only [handle, hn]

theorem reply_getInstance_absent (hf : m.failures.find? .getInstance = none)
    {project zone name : String} (hi : m.instances.find? (project, zone, name) = none) :
    m.reply (.getInstance project zone name) =
      (.error (absent project zone ["instances", name]),
        m.noted (.getInstance project zone name)) := by
  rw [reply_eq_handle hf]
  have hn :
      (m.noted (.getInstance project zone name)).instances.find? (project, zone, name) = none := hi
  simp only [handle, hn]

theorem reply_getZone {project zone : String} (h : m.Shows project zone) :
    m.reply (.getZone project zone) =
      (.ok ⟨zone, "UP", regionOf zone⟩, m.noted (.getZone project zone)) := by
  rw [reply_eq_handle h.zoning]
  exact if_neg h.zone

theorem reply_getOperation (hf : m.failures.find? .getOperation = none)
    {project zone operation : String} {x : TrackedOperation}
    (hx : m.operations.find? operation = some x) :
    m.reply (.getOperation project zone operation) =
      (.ok (x.poll m.operationFaults).operation,
        { m.noted (.getOperation project zone operation) with
          operations := m.operations.insert operation (x.poll m.operationFaults) }) := by
  rw [reply_eq_handle hf]
  have hn : (m.noted (.getOperation project zone operation)).operations.find? operation = some x :=
    hx
  simp only [handle, hn]
  rfl

/-- How an instance is made: it is there at once, and an operation on it is under way. -/
structure Makes (m : Mock) (project zone : String) (i : Instance) (o : Operation)
    (m' : Mock) : Prop where
  found : m'.instances.find? (project, zone, i.name) = some (created (m.nextId + 1) zone i)
  tracked : m'.operations.find? o.name = some ⟨o, m.pendingPolls⟩
  faultless : o.faults = none
  failures : m'.failures = m.failures
  missingZones : m'.missingZones = m.missingZones
  operationFaults : m'.operationFaults = m.operationFaults
  calls : m'.calls = m.calls.push (.insertInstance project zone i)

/-- An insertion where nothing was makes the instance. -/
theorem reply_insertInstance (hf : m.failures.find? .insertInstance = none)
    {project zone : String} {i : Instance} (hi : m.instances.find? (project, zone, i.name) = none) :
    ∃ o m', m.reply (.insertInstance project zone i) = (.ok o, m') ∧
      m.Makes project zone i o m' := by
  have hn :
      (m.noted (.insertInstance project zone i)).instances.find? (project, zone, i.name) = none :=
    hi
  rw [reply_eq_handle hf]
  simp only [handle, hn]
  refine ⟨_, _, rfl, ?_⟩
  exact ⟨Table.find?_insert_self .., Table.find?_insert_self .., rfl, rfl, rfl, rfl, rfl⟩

theorem Makes.insertions {project zone : String} {i : Instance} {o : Operation}
    (h : m.Makes project zone i o m') :
    m'.insertions = m.insertions + 1 := by
  have hc := callCount_noted (m := m) (.insertInstance project zone i) .insertInstance
  unfold Mock.insertions callCount at *
  rw [h.calls]
  exact hc

theorem Makes.lookups {project zone : String} {i : Instance} {o : Operation}
    (h : m.Makes project zone i o m') :
    m'.lookups = m.lookups := by
  have hc := lookups_noted (m := m) (q := .insertInstance project zone i) nofun
  unfold Mock.lookups callCount at *
  rw [h.calls]
  exact hc

/-- An operation that is tracked is found under way no more often than is left to it, and each look
counts. -/
theorem length_le_remaining {project zone operation : String}
    {rs : List (Except ComputeError Operation)}
    (h : service.Steps m (Service.polls project zone operation rs) m')
    (hf : m.failures.find? .getOperation = none) {x : TrackedOperation}
    (hx : m.operations.find? operation = some x)
    (hrs : ∀ r ∈ rs, ∃ o, r = .ok o ∧ o.isDone = false) :
    rs.length ≤ x.remaining ∧ m'.lookups = m.lookups + rs.length := by
  induction rs generalizing m x with
  | nil =>
    cases h
    exact ⟨Nat.zero_le _, rfl⟩
  | cons r rs ih =>
    obtain ⟨⟩ | ⟨first, rest⟩ := h
    obtain ⟨rfl, rfl⟩ := Prod.mk.inj ((reply_of_step first).trans (reply_getOperation hf hx))
    obtain ⟨o, ho, hpending⟩ := hrs _ List.mem_cons_self
    cases ho
    have hleft : 0 < x.remaining := by
      refine Nat.pos_of_ne_zero fun hzero => ?_
      rw [TrackedOperation.poll, if_neg (by omega)] at hpending
      cases hpending
    have hpoll : (x.poll m.operationFaults).remaining = x.remaining - 1 := by
      rw [TrackedOperation.poll, if_pos hleft]
    have hlookups : (m.noted (.getOperation project zone operation)).lookups = m.lookups + 1 :=
      callCount_noted _ _
    obtain ⟨hlength, hcount⟩ :=
      ih rest hf (Table.find?_insert_self ..) fun r hr => hrs r (List.mem_cons_of_mem _ hr)
    refine ⟨by rw [List.length_cons]; omega, hcount.trans ?_⟩
    change (m.noted (.getOperation project zone operation)).lookups + rs.length = _
    rw [hlookups, List.length_cons]
    omega

/-- What is left of making an instance that is cut short: it was asked for once, and when it is the
count that ends the waiting, as many looks were made at the operation as can be counted, and it was
to be under way for so long. -/
structure CutShort (m m' : Mock) (e : Halt) : Prop where
  insertions : m'.insertions = m.insertions + 1
  lookups : e = .attempts → m'.lookups = m.lookups + PollConfig.attemptLimit
  pendingPolls : e = .attempts → PollConfig.attemptLimit ≤ m.pendingPolls

end Reads
end Provision.Mock
