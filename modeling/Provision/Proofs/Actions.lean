import Provision.Actuator.Action
import Provision.Proofs.Creation.Conclusion

/-!
Actions on a machine as steps of the world. A journal of the store keeps what was written, so that
one can say of a run what it wrote, and which status a machine has after it.
-/
namespace Provision

open Timed

/-- A machine that a store was given, and what the store answered. -/
abbrev Write : Type := Machine × Except StoreError Unit

/-- The status that a write has left, if the store took it. -/
def Write.status? : Write → Option MachineStatus
  | (m, .ok ()) => some m.status
  | (_, .error _) => none

namespace Machine

def withStatus (m : Machine) (status : MachineStatus) : Machine := { m with status }

/-- The status last written, or that of the machine while nothing has been written. -/
def statusAfter (m : Machine) (written : List Write) : MachineStatus :=
  (written.filterMap Write.status?).getLast?.getD m.status

theorem statusAfter_append_ok (m m' : Machine) (written : List Write) :
    m.statusAfter (written ++ [(m', .ok ())]) = m'.status := by
  have hlast : [((m', .ok ()) : Write)].filterMap Write.status? = [m'.status] := rfl
  unfold statusAfter
  rw [List.filterMap_append, hlast, List.getLast?_concat]
  rfl

end Machine

namespace Scope

/-- The scope of the same machine in another status. -/
def inStatus (s : Scope) (st : MachineStatus) : Scope :=
  ⟨s.machine.withStatus st, st, s.project, s.released⟩

/-- The status that shows just what was seen of the instance. -/
def projection (s : Scope) (o : Observation) : MachineStatus where
  addresses := o.addresses
  providerId := some s.providerId
  provider := ⟨some o.instanceId, some o.instanceState⟩
  errorReason := none
  errorMessage := none

section Acquire

variable {s : Scope}

theorem acquire_eq_ok {default? : Option String} {machine : Machine} :
    acquire default? machine = .ok s ↔
      projectOf default? machine ≠ "" ∧
        s = ⟨machine, machine.status, projectOf default? machine, false⟩ := by
  by_cases hp : projectOf default? machine = ""
  · have ha : acquire default? machine = .error (noProject machine) := if_pos hp
    rw [ha]
    exact ⟨nofun, fun h => absurd hp h.1⟩
  · have ha : acquire default? machine =
        .ok ⟨machine, machine.status, projectOf default? machine, false⟩ :=
      if_neg hp
    rw [ha, Except.ok.injEq]
    exact ⟨fun h => ⟨hp, h.symm⟩, fun h => h.2.symm⟩

theorem machine_of_acquire {default? : Option String} {machine : Machine}
    (h : acquire default? machine = .ok s) : s.machine = machine := by
  obtain ⟨_, rfl⟩ := acquire_eq_ok.mp h
  rfl

/-- A machine that is taken up has the status it had. -/
theorem isDirty_of_acquire {default? : Option String} {machine : Machine}
    (h : acquire default? machine = .ok s) : s.isDirty = false := by
  obtain ⟨_, rfl⟩ := acquire_eq_ok.mp h
  exact decide_eq_false (not_not_intro rfl)

theorem acquire_withStatus {default? : Option String} {machine : Machine}
    (h : acquire default? machine = .ok s) (st : MachineStatus) :
    acquire default? (machine.withStatus st) = .ok (s.inStatus st) := by
  obtain ⟨hp, rfl⟩ := acquire_eq_ok.mp h
  exact acquire_eq_ok.mpr ⟨hp, rfl⟩

end Acquire

end Scope

namespace MachineStore

variable {τ : Type}

/-- Every write is answered, and fails at most as `may` says. -/
def Answers (k : MachineStore τ) (may : StoreError → Prop) : Prop :=
  ∀ m t, Ends never (k m) t fun r _ => ∀ e, r = .error e → may e

/-- No write fails. -/
abbrev Takes (k : MachineStore τ) : Prop := k.Answers fun _ => False

theorem Takes.answers {k : MachineStore τ} (h : k.Takes) : k.Answers fun _ => True :=
  fun m t => (h m t).weaken fun _ _ _ _ _ => trivial

/-- The store that also keeps what it was given, in order. -/
def journaled (k : MachineStore τ) : MachineStore (List Write × τ) := fun m => do
  let r ← Timed.within (·.2) (fun x p => (p.1, x)) (k m)
  Timed.update fun p => (r, (p.1 ++ [(m, r)], p.2))

theorem journaled_ends {k : MachineStore τ} {may : StoreError → Prop}
    (h : k.Answers may) {m : Machine} {t : Timeline (List Write × τ)} :
    Ends never (k.journaled m) t fun r u =>
      (∀ e, r = .error e → may e) ∧ u.world.1 = t.world.1 ++ [(m, r)] := by
  unfold journaled
  refine ends_bind (ends_within (h m _)) fun r u ⟨_, hr, _, hu⟩ => ?_
  refine (ends_update _).weaken fun r' v ⟨_, hv⟩ => ?_
  obtain ⟨rfl, hw⟩ := Prod.mk.injEq .. ▸ hv
  rw [hw, hu]
  exact ⟨hr, rfl⟩

theorem memory_takes : memory.Takes := by
  intro m t
  refine (ends_update _).weaken fun r u ⟨_, hu⟩ e he => ?_
  have hr := congrArg Prod.fst hu
  rw [he] at hr
  cases hr

end MachineStore

namespace SecretStore

variable {τ : Type}

/-- The store beside a journal. -/
def beside (k : SecretStore τ) : SecretStore (List Write × τ) := fun ns name =>
  Timed.within (·.2) (fun x p => (p.1, x)) (k ns name)

theorem Answers.beside {k : SecretStore τ} (h : k.Answers) : k.beside.Answers :=
  fun ns name _ => (ends_within (h ns name _)).weaken fun _ _ _ => trivial

theorem Resolves.beside {k : SecretStore τ} {m : Machine} {p : List Write × τ}
    (h : k.Resolves m p.2) :
    k.beside.Resolves m p := by
  rintro name hname t rfl
  exact (ends_within (h name hname ⟨t.now, t.log, t.world.2⟩ rfl)).weaken fun _ _ ⟨_, hr, _⟩ => hr

end SecretStore

namespace Collaborators

variable {σ τ : Type}

/-- The same collaborators, with a journal of the writes. -/
def journaled (c : Collaborators σ τ) : Collaborators σ (List Write × τ) where
  service := c.service
  secrets := c.secrets.beside
  machines := c.machines.journaled
  recorder := c.recorder
  polling := c.polling
  defaultProject := c.defaultProject

end Collaborators

namespace Scope

variable {σ τ : Type}

/-- How a scope may be closed, with a store that fails at most as `may` says: nothing is written
while the status is what it was, and else it is written once. -/
inductive Closes (s : Scope) (may : StoreError → Prop) :
    World σ (List Write × τ) → World σ (List Write × τ) → Except ActuatorError Unit → Prop
  | clean {w : World σ (List Write × τ)} (h : s.isDirty = false) : Closes s may w w (.ok ())
  | taken {w : World σ (List Write × τ)} {x : τ} (h : s.isDirty = true) :
      Closes s may w { w with storage := (w.storage.1 ++ [(s.machine, .ok ())], x) } (.ok ())
  | refused {w : World σ (List Write × τ)} {x : τ} (h : s.isDirty = true)
      {e : StoreError} (he : may e) :
      Closes s may w { w with storage := (w.storage.1 ++ [(s.machine, .error e)], x) }
        (.error (.store s.name e))

variable {s : Scope} {may : StoreError → Prop} {v w : World σ (List Write × τ)}
  {r : Except ActuatorError Unit}

/-- Closing changes neither the service nor the events. -/
theorem Closes.frame (h : s.Closes may v w r) : w.compute = v.compute ∧ w.events = v.events := by
  cases h with
  | clean _ => exact ⟨rfl, rfl⟩
  | taken _ => exact ⟨rfl, rfl⟩
  | refused _ _ => exact ⟨rfl, rfl⟩

/-- Once a scope is closed with a store that takes all, the status written last is its status. -/
theorem Closes.statusAfter {m : Machine} (h : s.Closes (fun _ => False) v w r)
    (ho : m.statusAfter v.storage.1 = s.origin) : m.statusAfter w.storage.1 = s.status := by
  cases h with
  | clean hd =>
    rw [ho]
    exact (Decidable.not_not.mp (of_decide_eq_false hd)).symm
  | taken _ => exact Machine.statusAfter_append_ok m s.machine v.storage.1
  | refused _ he => exact he.elim

/-- Closing succeeds with a store that takes all. -/
theorem Closes.eq_ok (h : s.Closes (fun _ => False) v w r) : r = .ok () := by
  cases h with
  | clean _ => rfl
  | taken _ => rfl
  | refused _ he => exact he.elim

/-- Closing a scope whose status is what it was writes nothing. -/
theorem Closes.eq_of_clean (h : s.Closes may v w r) (hs : s.status = s.origin) : w = v := by
  have hd : s.isDirty = false := decide_eq_false (not_not_intro hs)
  cases h with
  | clean _ => rfl
  | taken h => rw [hd] at h; cases h
  | refused h _ => rw [hd] at h; cases h

/-- The request for the zone. -/
abbrev zoning (s : Scope) : Call := .getZone s.project s.zone

/-- Whether a read tells that the instance is there. -/
def found (s : Scope) : Except ComputeError Instance → Except ActuatorError Bool
  | .ok _ => .ok true
  | .error e => if e.isNotFound then .ok false else .error (s.callFailed "get" e)

/-- How looking for the instance comes out, and the exchanges on the way. -/
inductive Looked (s : Scope) : Except ActuatorError Bool → List Exchange → Prop
  | invalid {e : ValidationError} (he : s.machine.validationError? = some e) :
      Looked s (.error (.machine (.invalidSpec e))) []
  | misplaced (hv : s.machine.validationError? = none) (e : ComputeError) :
      Looked s (.error (.ofCompute ("unable to verify project/zone exists: " ++ s.place) e))
        [⟨s.zoning, .error e⟩]
  | looked (hv : s.machine.validationError? = none) (z : Zone) (r : Reply s.reading) :
      Looked s (s.found r) [⟨s.zoning, .ok z⟩, ⟨s.reading, r⟩]

end Scope

/-- A run that answers with an error ends. -/
theorem Outcome.exists_of_error {ω α : Type} {r : Except Halt (Outcome α) × Timeline ω}
    {e : ActuatorError} (h : (r.1.toOption.bind fun y => errorOf? y.result) = some e) :
    ∃ y, r = (.ok y, r.2) ∧ y.result = .error e := by
  obtain ⟨_ | y, u⟩ := r
  · cases h
  · exact ⟨y, rfl, eq_error_of_errorOf? h⟩

namespace Collaborators

variable {σ τ : Type} {c : Collaborators σ τ} {s : Scope}

theorem update_ends_of_call {stop : Halt → Timeline (World σ τ) → Prop} {t : Timeline (World σ τ)}
    {P : Reply s.reading → Timeline (World σ τ) → Prop} (h : Ends stop (c.call s.reading) t P) :
    Ends stop (c.update s) t fun x u => ∃ r v, P r v ∧ u.world = v.world ∧
      x = (s.readResult r, (s.read r).settled (s.readResult r)) := by
  unfold update
  refine ends_bind (refresh_ends_of_call h) ?_
  rintro _ u ⟨r, v, hr, hu, rfl⟩
  cases hx : s.readResult r with
  | error e =>
    refine ends_pure ⟨r, v, hr, hu, ?_⟩
    rw [hx]
    rfl
  | ok _ =>
    refine ends_pure ⟨r, v, hr, hu, ?_⟩
    rw [hx]
    rfl

theorem update_ends (hs : c.service.Answers) {t : Timeline (World σ τ)} :
    Ends never (c.update s) t fun x u => ∃ r,
      c.service.Step s.reading t.world.compute r u.world.compute ∧ t.world.SameRecords u.world ∧
        x = (s.readResult r, (s.read r).settled (s.readResult r)) := by
  refine (update_ends_of_call (call_ends hs s.reading)).weaken ?_
  rintro x u ⟨r, v, ⟨hr, hv⟩, hu, hx⟩
  rw [hu]
  exact ⟨r, hr, hv, hx⟩

theorem instanceExists_ends (hs : c.service.Answers) {t : Timeline (World σ τ)} :
    Ends never (c.instanceExists s) t fun x u => ∃ es,
      s.Looked x es ∧ c.service.Steps t.world.compute es u.world.compute ∧
        t.world.SameRecords u.world := by
  unfold instanceExists
  split
  next e he => exact ends_pure ⟨[], .invalid he, .nil _, .refl _⟩
  next hv =>
    have hv' : s.machine.validationError? = none := by
      cases hx : s.machine.validationError? with
      | none => rfl
      | some e => exact absurd hx (hv e)
    refine ends_bind (call_ends hs s.zoning) fun r u ⟨hr, hu⟩ => ?_
    cases r with
    | error e => exact ends_pure ⟨_, .misplaced hv' e, hr.steps, hu⟩
    | ok z =>
      refine ends_bind (call_ends hs s.reading) fun r' v ⟨hr', hw⟩ => ?_
      have hes : s.Looked (s.found r') [⟨s.zoning, .ok z⟩, ⟨s.reading, r'⟩] := .looked hv' z r'
      have hsteps := hr.steps.append hr'.steps
      have hnoted :
          ∀ {x : Except ActuatorError Bool} {message : String} {fields : List (String × Log.Value)},
          s.found r' = x →
          Ends never (do Timed.log .debug .reconciliation message fields; return x) v
            fun x u => ∃ es,
            s.Looked x es ∧ c.service.Steps t.world.compute es u.world.compute ∧
              t.world.SameRecords u.world := by
        intro x message fields hx
        refine ends_bind ends_log fun _ z ⟨_, hz⟩ => ends_pure ?_
        rw [hz, ← hx]
        exact ⟨_, hes, hsteps, hu.trans hw⟩
      cases r' with
      | ok i => exact hnoted rfl
      | error e =>
        by_cases he : e.isNotFound = true
        · simp only [he, if_true]
          exact hnoted (if_pos he)
        · simp only [he]
          have hfound : s.found (.error e) = .error (s.callFailed "get" e) := if_neg he
          refine ends_pure ⟨_, ?_, hsteps, hu.trans hw⟩
          exact hfound ▸ hes

theorem reconcile_exists_ends (hs : c.service.Answers) {t : Timeline (World σ τ)} :
    Ends never (c.reconcile s .exists) t fun x u => ∃ es,
      s.Looked x.1 es ∧ c.service.Steps t.world.compute es u.world.compute ∧
        t.world.SameRecords u.world := by
  exact ends_bind (Scope.holding_ends_of_never (instanceExists_ends hs)) fun x u hu => ends_pure hu

theorem reconcile_update_ends (hs : c.service.Answers) {t : Timeline (World σ τ)} :
    Ends never (c.reconcile s .update) t fun x u => ∃ r,
      c.service.Step s.reading t.world.compute r u.world.compute ∧ t.world.SameRecords u.world ∧
        x = (s.readResult r, (s.read r).settled (s.readResult r)) :=
  Scope.holding_ends_of_never (update_ends hs)

/-- A scope that is closed is left without a word. -/
theorem close_eq (c : Collaborators σ τ) (s : Scope) : c.close s = c.persist s := s.parting_eq _

/-- Closing a scope whose writes are journaled. -/
theorem close_ends {may : StoreError → Prop} (hm : c.machines.Answers may)
    {t : Timeline (World σ (List Write × τ))} :
    Ends never (c.journaled.close s) t fun x u => s.Closes may t.world u.world x := by
  rw [close_eq]
  unfold persist
  split
  next hd =>
    refine ends_bind (World.ends_onStorage (MachineStore.journaled_ends hm)) ?_
    rintro r u ⟨v, ⟨hr, hv⟩, hu⟩
    have hw : v.world = (t.world.storage.1 ++ [(s.machine, r)], v.world.2) := by
      rw [← hv]
    rw [hw] at hu
    cases r with
    | error e =>
      refine ends_pure ?_
      rw [hu]
      exact .refused hd (hr e rfl)
    | ok _ =>
      refine ends_bind ends_log fun _ z ⟨_, hz⟩ => ends_pure ?_
      rw [hz, hu]
      exact .taken hd
  next hd =>
    refine ends_bind ends_log fun _ z ⟨_, hz⟩ => ends_pure ?_
    rw [hz]
    exact .clean (Bool.eq_false_iff.mpr hd)

theorem firstFailure_ok {α : Type} (r : Except ActuatorError α) : firstFailure r (.ok ()) = r := by
  cases r <;> rfl

section Perform

variable {a : Action} {m : Machine}

/-- What an action does with the scope of its machine. -/
def performOn (c : Collaborators σ τ) (a : Action) (s : Scope) :
    Timed (World σ τ) (Outcome a.Answer) := do
  let (r, s) ← c.reconcile s a
  if let .error e := r then s.logFailure a e
  if a.persists then
    let closed ← c.close s
    return ⟨firstFailure r closed, s.machine⟩
  else
    s.discard
    return ⟨r, s.machine⟩

/-- Lets the machine of an action go, after work on it came out as `r`. -/
def release (c : Collaborators σ τ) (a : Action) (r : Except ActuatorError a.Answer) (s : Scope) :
    Timed (World σ τ) (Outcome a.Answer) := do
  if a.persists then
    let closed ← c.close s
    return ⟨firstFailure r closed, s.machine⟩
  else
    s.discard
    return ⟨r, s.machine⟩

theorem performOn_eq (c : Collaborators σ τ) (a : Action) (s : Scope) :
    c.performOn a s = c.reconcile s a >>= fun x =>
      match x.1 with
      | .ok _ => c.release a x.1 x.2
      | .error e => x.2.logFailure a e >>= fun _ => c.release a x.1 x.2 := by
  unfold performOn
  congr 1
  funext x
  obtain ⟨r, s'⟩ := x
  cases r <;> rfl

theorem perform_ends_of_acquire (hacq : Scope.acquire c.defaultProject m = .ok s)
    {t : Timeline (World σ τ)} {stop : Halt → Timeline (World σ τ) → Prop}
    {Q : Outcome a.Answer → Timeline (World σ τ) → Prop}
    (h : ∀ v, v.now = t.now → v.world = t.world → Ends stop (c.performOn a s) v Q) :
    Ends stop (c.perform a m) t Q := by
  unfold perform
  rw [hacq]
  exact ends_bind ends_log fun _ v ⟨hn, hw⟩ => h v hn hw

/-- What an action leaves that writes nothing. -/
theorem perform_ends_of_reads (P : Except ActuatorError a.Answer × Scope → World σ τ → Prop)
    (ha : a.persists = false) (hacq : Scope.acquire c.defaultProject m = .ok s)
    {t : Timeline (World σ τ)} {stop : Halt → Timeline (World σ τ) → Prop}
    (h : ∀ v, v.world = t.world → Ends stop (c.reconcile s a) v fun x u => P x u.world) :
    Ends stop (c.perform a m) t fun y u => ∃ x, P x u.world ∧ y = ⟨x.1, x.2.machine⟩ := by
  refine perform_ends_of_acquire hacq fun v _ hv => ends_bind (h v hv) fun x u hx => ?_
  simp only [ha]
  obtain ⟨r, s'⟩ := x
  cases r with
  | ok b => exact ends_pure ⟨_, hx, rfl⟩
  | error e =>
    refine ends_bind ends_log fun _ w ⟨_, hw⟩ => ends_pure ⟨_, ?_, rfl⟩
    rwa [hw]

/-- What an action leaves that closes its scope. -/
theorem perform_ends_of_persists
    (P : Except ActuatorError a.Answer × Scope → World σ (List Write × τ) → Prop)
    (ha : a.persists = true) (hacq : Scope.acquire c.defaultProject m = .ok s)
    {may : StoreError → Prop} (hm : c.machines.Answers may)
    {t : Timeline (World σ (List Write × τ))}
    {stop : Halt → Timeline (World σ (List Write × τ)) → Prop}
    (h : ∀ v, v.now = t.now → v.world = t.world →
      Ends stop (c.journaled.reconcile s a) v fun x u => P x u.world) :
    Ends stop (c.journaled.perform a m) t fun y u => ∃ x w closed, P x w ∧
      x.2.Closes may w u.world closed ∧ y = ⟨firstFailure x.1 closed, x.2.machine⟩ := by
  refine perform_ends_of_acquire (c := c.journaled) hacq fun v hn hw =>
    ends_bind (h v hn hw) fun x u hx => ?_
  simp only [ha, if_true]
  obtain ⟨r, s'⟩ := x
  have hclose : ∀ w : Timeline (World σ (List Write × τ)), w.world = u.world →
      Ends stop (do
        let closed ← c.journaled.close s'
        return (⟨firstFailure r closed, s'.machine⟩ : Outcome a.Answer)) w fun y z => ∃ x w closed,
          P x w ∧ x.2.Closes may w z.world closed ∧ y = ⟨firstFailure x.1 closed, x.2.machine⟩ := by
    intro w hw
    refine ends_bind (close_ends hm).of_never fun closed z hz => ends_pure ?_
    rw [hw] at hz
    exact ⟨_, _, closed, hx, hz, rfl⟩
  cases r with
  | ok b => exact hclose u rfl
  | error e => exact ends_bind ends_log fun _ w ⟨_, hw⟩ => hclose w hw

end Perform

end Collaborators
end Provision
