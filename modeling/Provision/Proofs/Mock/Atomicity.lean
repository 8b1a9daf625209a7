import Provision.Proofs.Mock.Runs

/-!
Calls of the service in memory happen whole or not at all. A call that fails leaves nothing behind
but that it was made, and so does a look at an instance or a zone; insertions and removals do to the
instances what they do to a map by project, zone and name.
-/
namespace Provision.Mock

variable {m m' : Mock} {d : Deed} {ds : List Deed}

section Replies

variable (m) (q : Call)

theorem handle_calls : (m.handle q).2.calls = m.calls := by
  cases q <;> simp only [handle] <;> split <;> rfl

theorem handle_of_error {e : ComputeError} (h : (m.handle q).1 = .error e) :
    (m.handle q).2 = m := by
  cases q with
  | insertInstance | deleteInstance | getInstance | getZone =>
    simp only [handle] at h ⊢
    split <;> simp_all
  | getOperation project zone operation =>
    simp only [handle] at h ⊢
    split <;> simp_all

theorem handle_of_reading (hq : q.method = .getInstance ∨ q.method = .getZone) :
    (m.handle q).2 = m := by
  cases q with
  | insertInstance | deleteInstance | getOperation => simp [Call.method] at hq
  | getInstance | getZone =>
    simp only [handle]
    split <;> rfl

theorem reply_calls : (m.reply q).2.calls = m.calls.push q := by
  rw [reply_eq]
  split
  · rfl
  · exact handle_calls (m.noted q) q

theorem reply_of_error {e : ComputeError} (h : (m.reply q).1 = .error e) :
    (m.reply q).2 = m.noted q := by
  rw [reply_eq] at h ⊢
  split
  · rfl
  next hfailures =>
    rw [hfailures] at h
    exact handle_of_error (m.noted q) q h

theorem reply_of_reading (hq : q.method = .getInstance ∨ q.method = .getZone) :
    (m.reply q).2 = m.noted q := by
  rw [reply_eq]
  split
  · rfl
  · exact handle_of_reading (m.noted q) q hq

end Replies

section Instances

/-- Instances are kept under their own names. -/
def Keyed (m : Mock) : Prop :=
  ∀ project zone name i, m.instances.find? (project, zone, name) = some i → i.name = name

theorem Keyed.insert (h : m.Keyed) {project zone : String} {i : Instance}
    (hm : m'.instances = m.instances.insert (project, zone, i.name) i) : m'.Keyed := by
  intro project' zone' name j hj
  rw [hm, Table.find?_insert] at hj
  split at hj
  next heq =>
    cases heq
    cases hj
    rfl
  · exact h _ _ _ _ hj

theorem Keyed.erase (h : m.Keyed) {key : InstanceKey} (hm : m'.instances = m.instances.erase key) :
    m'.Keyed := by
  intro project' zone' name j hj
  rw [hm, Table.find?_erase] at hj
  split at hj
  · cases hj
  · exact h _ _ _ _ hj

theorem Keyed.handle (h : m.Keyed) (q : Call) : (m.handle q).2.Keyed := by
  cases q with
  | insertInstance project zone i =>
    simp only [Mock.handle]
    split
    · exact h
    · exact h.insert (i := created (m.nextId + 1) zone i) rfl
  | deleteInstance project zone name =>
    simp only [Mock.handle]
    split
    · exact h.erase rfl
    · exact h
  | getInstance | getZone | getOperation =>
    simp only [Mock.handle]
    split <;> exact h

theorem Keyed.does (h : m.Keyed) (hdoes : Does m d m') : m'.Keyed := by
  cases hdoes with
  | @exchange _ q r hstep =>
    have hreply : (m.reply q).2.Keyed := by
      rw [reply_eq]
      split
      · exact h
      · exact Keyed.handle (m := m.noted q) h q
    rwa [← reply_of_step hstep] at hreply
  | failing | clearing => exact h
  | seeding project zone i => exact h.insert rfl

theorem Keyed.run (h : m.Keyed) (hrun : Run m ds m') : m'.Keyed := by
  induction hrun with
  | nil => exact h
  | cons first _ ih => exact ih (h.does first)

/-- How a call goes that is not made to fail, with the instances as a map by project, zone and name.
An instance that is made has an id, runs in its zone, and has an address on every interface and
outside wherever one is asked for; all else of it is as requested. -/
def Agrees (m : Mock) : (q : Call) → Reply q → Mock → Prop
  | .insertInstance project zone i, r, m' =>
    let made : Instance :=
      { i with
        id := some (m.nextId + 1)
        status := "RUNNING"
        zone := zone
        interfaces := i.interfaces.map fun n =>
          { n with
            address := "10.0.0.15"
            accessConfigs := n.accessConfigs.map fun c => { c with address := "35.243.147.143" } } }
    ((∃ o, r = .ok o) ↔ m.instances.find? (project, zone, i.name) = none) ∧
      (∀ e, r = .error e → e.kind = .conflict) ∧
      ((∃ o, r = .ok o) →
        (∀ key, m'.instances.find? key =
          if key = (project, zone, i.name) then some made else m.instances.find? key) ∧
          (m.failures.find? .getInstance = none →
            ∃ m'', service.Step (.getInstance project zone i.name) m' (.ok made) m''))
  | .deleteInstance project zone name, r, m' =>
    ((∃ o, r = .ok o) ↔ m.instances.find? (project, zone, name) ≠ none) ∧
      (∀ e, r = .error e → e.kind = .notFound) ∧
      ((∃ o, r = .ok o) →
        ∀ key, m'.instances.find? key =
          if key = (project, zone, name) then none else m.instances.find? key)
  | .getInstance project zone name, r, _ =>
    (∀ i, r = .ok i ↔ m.instances.find? (project, zone, name) = some i) ∧
      ∀ e, r = .error e → e.kind = .notFound
  | .getZone _ _, _, m' => m'.instances = m.instances
  | .getOperation _ _ _, _, m' => m'.instances = m.instances

theorem agrees_insertInstance (hf : m.failures.find? .insertInstance = none)
    (project zone : String) (i : Instance) :
    m.Agrees (.insertInstance project zone i) (m.reply (.insertInstance project zone i)).1
      (m.reply (.insertInstance project zone i)).2 := by
  cases hfind : m.instances.find? (project, zone, i.name) with
  | some j =>
    have hreply : m.reply (.insertInstance project zone i) =
        (.error (.conflict (resource project zone ["instances", i.name] ++ " already exists")),
          m.noted (.insertInstance project zone i)) := by
      rw [reply_eq_handle hf]
      simp only [handle, noted, hfind, Option.isSome_some, if_true]
    rw [hreply]
    refine ⟨by simp [hfind], ?_, ?_⟩
    · rintro e he
      cases he
      rfl
    · rintro ⟨o, ho⟩
      cases ho
  | none =>
    obtain ⟨o, m', hreply, hm, hfailures⟩ :
        ∃ o m', m.reply (.insertInstance project zone i) = (.ok o, m') ∧
        m'.instances = m.instances.insert (project, zone, i.name) (created (m.nextId + 1) zone i) ∧
        m'.failures = m.failures := by
      rw [reply_eq_handle hf]
      simp only [handle, noted, hfind, Option.isSome_none, Bool.false_eq_true, if_false]
      exact ⟨_, _, rfl, rfl, rfl⟩
    rw [hreply]
    refine ⟨by simp [hfind], ?_, fun _ => ⟨fun key => by rw [hm]; rfl, fun hreading => ?_⟩⟩
    · rintro e he
      cases he
    · rw [← hfailures] at hreading
      exact ⟨_,
        step_iff.mpr
          (reply_getInstance hreading (by rw [hm]; exact Table.find?_insert_self ..)).symm⟩

theorem agrees_deleteInstance (hf : m.failures.find? .deleteInstance = none)
    (project zone name : String) :
    m.Agrees (.deleteInstance project zone name) (m.reply (.deleteInstance project zone name)).1
      (m.reply (.deleteInstance project zone name)).2 := by
  cases hfind : m.instances.find? (project, zone, name) with
  | none =>
    have hreply : m.reply (.deleteInstance project zone name) =
        (.error (absent project zone ["instances", name]),
          m.noted (.deleteInstance project zone name)) := by
      rw [reply_eq_handle hf]
      simp only [handle, noted, hfind, Option.isSome_none, Bool.false_eq_true, if_false]
    rw [hreply]
    refine ⟨by simp [hfind], ?_, ?_⟩
    · rintro e he
      cases he
      rfl
    · rintro ⟨o, ho⟩
      cases ho
  | some j =>
    obtain ⟨o, m', hreply, hm⟩ : ∃ o m', m.reply (.deleteInstance project zone name) = (.ok o, m') ∧
        m'.instances = m.instances.erase (project, zone, name) := by
      rw [reply_eq_handle hf]
      simp only [handle, noted, hfind, Option.isSome_some, if_true]
      exact ⟨_, _, rfl, rfl⟩
    rw [hreply]
    refine ⟨by simp [hfind], ?_, fun _ key => by rw [hm]; rfl⟩
    rintro e he
    cases he

theorem agrees_reply {q : Call} (hf : m.failures.find? q.method = none) :
    m.Agrees q (m.reply q).1 (m.reply q).2 := by
  cases q with
  | insertInstance project zone i => exact agrees_insertInstance hf project zone i
  | deleteInstance project zone name => exact agrees_deleteInstance hf project zone name
  | getInstance project zone name =>
    cases hfind : m.instances.find? (project, zone, name) with
    | some i =>
      rw [reply_getInstance hf hfind]
      exact ⟨fun j => by simp [hfind], fun e he => (nomatch he)⟩
    | none =>
      rw [reply_getInstance_absent hf hfind]
      refine ⟨fun j => by simp [hfind], fun e he => ?_⟩
      cases he
      rfl
  | getZone project zone =>
    exact (congrArg Mock.instances (reply_of_reading m (.getZone project zone) (.inr rfl))).trans
      rfl
  | getOperation project zone name => exact (reply_getOperation_alike project zone name).instances

end Instances

/-- Whatever was done to the service in memory, its instances are under their own names, and a call
of any kind is answered in one way and kept. A call that fails, as it is set to or by itself,
changes nothing else, and so does a look at an instance or a zone; and calls that are not set to
fail agree with a map of the instances. -/
theorem calls_atomic {polls : Nat} {faults : List OperationFault} {zones : List (String × String)}
    (run : Run (prepared polls faults zones) ds m) (q : Call) :
    (∀ project zone name i, m.instances.find? (project, zone, name) = some i → i.name = name) ∧
      ∃ r m', (∀ r' m'', service.Step q m r' m'' ↔ r' = r ∧ m'' = m') ∧ m'.calls = m.calls.push q ∧
        (∀ e, r = .error e → m' = { m with calls := m.calls.push q }) ∧
        (q.method = .getInstance ∨ q.method = .getZone → m' = { m with calls := m.calls.push q }) ∧
        (∀ e, m.failures.find? q.method = some e → r = .error e) ∧
        (m.failures.find? q.method = none → m.Agrees q r m') := by
  have hkeyed : (prepared polls faults zones).Keyed := fun _ _ _ _ h => nomatch h
  refine ⟨hkeyed.run run, (m.reply q).1, (m.reply q).2, fun r' m'' => ?_, reply_calls m q,
    fun e => reply_of_error m q,
    reply_of_reading m q, fun e he => by rw [reply_injected he], agrees_reply⟩
  rw [step_iff, ← Prod.mk.injEq]

/-- What is there is not made again: the refused insertion is kept, and that is all. -/
theorem calls_atomic_present :
    let worker : Instance := ⟨"worker-0", none, "", false, false, ∅, none, [], [], [], none, "", ""⟩
    let m := (prepared 0 [] []).seed "lab" "us-east1-c" worker
    Run (prepared 0 [] []) [.seeding "lab" "us-east1-c" worker] m ∧
      ∃ e, e.kind = .conflict ∧
        service.Step (.insertInstance "lab" "us-east1-c" worker) m (.error e)
          { m with calls := #[.insertInstance "lab" "us-east1-c" worker] } := by
  intro worker m
  have hrun : Run (prepared 0 [] []) [.seeding "lab" "us-east1-c" worker] m :=
    .cons (.seeding _ _ _ _) (.nil _)
  obtain ⟨-, r, m', hstep, -, hfailed, -, -, hagrees⟩ :=
    calls_atomic hrun (.insertInstance "lab" "us-east1-c" worker)
  obtain ⟨hgranted, hkind, -⟩ := hagrees rfl
  refine ⟨hrun, ?_⟩
  cases r with
  | ok o => exact absurd (hgranted.mp ⟨o, rfl⟩) (by simp [m, seed])
  | error e => exact ⟨e, hkind e rfl, (hstep _ _).mpr ⟨rfl, (hfailed e rfl).symm⟩⟩

end Provision.Mock
