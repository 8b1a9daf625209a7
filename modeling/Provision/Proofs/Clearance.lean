import Provision.Proofs.Deletion
import Provision.Proofs.Isolation

/-!
What a removal leaves on the service in memory. Once it has come to an end the instance is not
there, whatever its operation came to; nothing else was touched; and further removals find nothing
that they could ask to be removed.
-/
namespace Provision

open Timed

namespace Mock

variable {m m' : Mock}

/-- A reply that no failure accounts for comes of the call itself. -/
theorem handle_of_reply {q : Call} {r : Reply q} (h : (r, m') = m.reply q)
    (hr : ∀ e, m.failures.find? q.method = some e → r ≠ .error e) :
    m.failures.find? q.method = none ∧ (r, m') = (m.noted q).handle q := by
  rw [reply_eq] at h
  cases hf : m.failures.find? q.method with
  | none =>
    rw [hf] at h
    exact ⟨rfl, h⟩
  | some e =>
    rw [hf] at h
    exact absurd (Prod.mk.inj h).1 (hr e hf)

/-- Exchanges about one instance leave all others as they are. -/
theorem steps_frame {k : InstanceKey} {es : List Exchange} (h : service.Steps m es m')
    (hes : ∀ e ∈ es, ∀ k', e.1.target? = some k' → k' = k) : m.Frame k m' := by
  induction h with
  | nil w => exact .refl k w
  | @cons w _ _ q _ _ first _ ih =>
    obtain ⟨hq, hrest⟩ := List.forall_mem_cons.mp hes
    have hframe : w.Frame k (w.reply q).2 := reply_frame hq
    rw [← reply_of_step first] at hframe
    exact hframe.trans (ih hrest)

/-- Where a zone was found, it is there. -/
theorem zone_of_reply {project zone : String} {z : Zone}
    (h : (.ok z, m') = m.reply (.getZone project zone)) :
    (project, zone) ∉ m.missingZones ∧ m.failures.find? .getZone = none := by
  obtain ⟨hf, hz⟩ := handle_of_reply h fun _ _ => nofun
  refine ⟨fun hmissing => ?_, hf⟩
  have hnone : (m.noted (.getZone project zone)).handle (.getZone project zone) =
      (.error (absent project zone []), m.noted (.getZone project zone)) := if_pos hmissing
  rw [hnone] at hz
  cases hz

end Mock

namespace Scope

variable {s : Scope} {m m' : Mock} {es : List Exchange}

/-- The exchanges of a removal are about the instance of its machine only. -/
theorem Lawful.target?_eq (h : s.Lawful es) : ∀ e ∈ es, ∀ k, e.1.target? = some k → k = s.key := by
  induction h with
  | nil =>
    intro e he
    cases he
  | next _ e hp ih =>
    intro e' he' k hk
    obtain he' | he' := List.mem_append.mp he'
    · exact ih e' he' k hk
    · obtain rfl := List.mem_singleton.mp he'
      obtain ⟨q, r⟩ := e'
      cases q with
      | insertInstance => exact hp.elim
      | deleteInstance project zone name =>
        obtain ⟨⟩ := hp.1
        exact (Option.some.inj hk).symm
      | getInstance | getZone | getOperation => cases hk

theorem Removing.frame (h : s.Removing es) (hsteps : Mock.service.Steps m es m') :
    m.Frame s.key m' :=
  Mock.steps_frame hsteps h.lawful.target?_eq

/-- Looks for the instance find that it is not there. -/
structure Vacant (s : Scope) (m : Mock) : Prop where
  valid : s.machine.validationError? = none
  shows : m.Shows s.project s.zone
  absent : m.instances.find? s.key = none

theorem Vacant.of_alike (h : s.Vacant m) (ha : m.Alike m') : s.Vacant m' where
  valid := h.valid
  shows := h.shows.of_alike ha
  absent := by
    rw [ha.instances]
    exact h.absent

theorem Vacant.inStatus (h : s.Vacant m) (st : MachineStatus) : (s.inStatus st).Vacant m :=
  ⟨h.valid, h.shows, h.absent⟩

/-- A look that tells was not made to fail, when no failure looks like an absent instance. -/
theorem Looked.shows {b : Bool} (h : s.Looked (.ok b) es) (hsteps : Mock.service.Steps m es m')
    (hget : ∀ e, m.failures.find? .getInstance = some e → ¬e.isNotFound = true) :
    s.machine.validationError? = none ∧ m.Shows s.project s.zone := by
  generalize hx : (Except.ok b : Except ActuatorError Bool) = x at h
  cases h with
  | invalid => cases hx
  | misplaced => cases hx
  | looked hv z r =>
    cases hsteps with
    | cons first rest =>
      obtain ⟨hzone, hzoning⟩ := Mock.zone_of_reply (Mock.reply_of_step first)
      have hframe : m.Frame s.key _ := Mock.steps_frame first.steps (by simp [Call.target?])
      have hr : ∀ e, m.failures.find? .getInstance = some e → r ≠ .error e := by
        rintro e he rfl
        rw [found, if_neg (hget e he)] at hx
        cases hx
      rw [← hframe.failures] at hr
      have hreading := (Mock.handle_of_reply (Mock.reply_of_step rest.single) hr).1
      rw [hframe.failures] at hreading
      exact ⟨hv, hzone, hzoning, hreading⟩

/-- Where the instance was seen, its removal fails only when it is made to, and it is gone at once
otherwise. -/
theorem removal_of_mock {r : Reply s.removal}
    (hsteps : Mock.service.Steps m (⟨s.removal, r⟩ :: es) m')
    (hi : (m.instances.find? s.key).isSome = true) :
    (∃ e, r = .error e ∧ m.failures.find? .deleteInstance = some e) ∨
      ∃ o m₁, r = .ok o ∧ Mock.service.Steps m₁ es m' ∧ m₁.instances.find? s.key = none ∧
        m₁.failures = m.failures ∧ m₁.missingZones = m.missingZones := by
  cases hsteps with
  | cons first rest =>
    have hreply := Mock.reply_of_step first
    cases hf : m.failures.find? .deleteInstance with
    | some e =>
      rw [Mock.reply_eq, show m.failures.find? s.removal.method = some e from hf] at hreply
      obtain ⟨rfl, rfl⟩ := Prod.mk.inj hreply
      exact .inl ⟨e, rfl, rfl⟩
    | none =>
      have hhandle : (m.noted s.removal).handle s.removal = _ := if_pos hi
      rw [Mock.reply_eq_handle hf, hhandle] at hreply
      obtain ⟨rfl, rfl⟩ := Prod.mk.inj hreply
      exact .inr ⟨_, _, rfl, rest, Table.find?_erase_self .., rfl, rfl⟩

/-- What is answered only once the instance is gone: the removal succeeded, or its operation did not
end in time, or it ended with faults. -/
inductive Clears : Except ActuatorError Unit → Prop
  | done : Clears (.ok ())
  | late (operation : String) (elapsed : Duration) (attempts : Nat) (last : Option Operation) :
      Clears (.error (.operationTimeout operation elapsed attempts last))
  | failed (operation : String) (faults : List OperationFault) :
      Clears (.error (.operationFailed operation faults))

theorem not_clears_ofCompute (context : String) (source : ComputeError) :
    ¬Clears (.error (.ofCompute context source)) := by
  unfold ActuatorError.ofCompute
  split
  · nofun
  · nofun

theorem Looked.not_clears {e : ActuatorError} (h : s.Looked (.error e) es) :
    ¬Clears (.error e) := by
  generalize hx : (Except.error e : Except ActuatorError Bool) = x at h
  cases h with
  | invalid =>
    cases hx
    exact nofun
  | misplaced _ e' =>
    obtain rfl := Except.error.inj hx
    exact not_clears_ofCompute _ e'
  | looked _ z r =>
    cases r with
    | ok i => cases hx
    | error e' =>
      by_cases he : e'.isNotFound = true
      · rw [found, if_pos he] at hx
        cases hx
      · rw [found, if_neg he] at hx
        obtain rfl := Except.error.inj hx
        exact not_clears_ofCompute _ e'

/-- A removal that has come to an end leaves the instance absent. -/
theorem Removed.vacant {x : Except ActuatorError Unit} (h : s.Removed x es)
    (hsteps : Mock.service.Steps m es m')
    (hget : ∀ e, m.failures.find? .getInstance = some e → ¬e.isNotFound = true)
    (hdelete : ∀ e, m.failures.find? .deleteInstance = some e → ¬e.isNotFound = true)
    (hx : Clears x) :
    s.Vacant m' := by
  have hpresent : ∀ {es m₁}, s.Looked (.ok true) es → Mock.service.Steps m es m₁ →
      s.machine.validationError? = none ∧ m.Shows s.project s.zone ∧ m.Alike m₁ ∧
        (m₁.instances.find? s.key).isSome = true := by
    intro es m₁ hes hsteps
    obtain ⟨hv, hshows⟩ := hes.shows hsteps hget
    obtain ⟨hi, rfl⟩ := hes.of_mock hsteps hv hshows
    exact ⟨hv, hshows, s.look_alike m, (Except.ok.inj hi).symm⟩
  cases h with
  | unsure h => exact absurd hx h.not_clears
  | absent h =>
    obtain ⟨hv, hshows⟩ := h.shows hsteps hget
    obtain ⟨hi, rfl⟩ := h.of_mock hsteps hv hshows
    have habsent : m.instances.find? s.key = none := by
      rw [← Option.isNone_iff_eq_none, ← Option.not_isSome, ← Except.ok.inj hi]
      rfl
    exact Vacant.of_alike ⟨hv, hshows, habsent⟩ (s.look_alike m)
  | @vanished es h e he =>
    obtain ⟨m₁, hlook, hremoval⟩ := hsteps.of_append
    obtain ⟨_, _, halike, hi⟩ := hpresent h hlook
    obtain ⟨e', he', hf⟩ | ⟨o, _, ho, _⟩ := removal_of_mock hremoval hi
    · obtain rfl := Except.error.inj he'
      rw [halike.failures] at hf
      exact absurd he (hdelete _ hf)
    · cases ho
  | refused h he => exact absurd hx (not_clears_ofCompute _ _)
  | @waited es h o rs y hy =>
    rw [List.append_assoc] at hsteps
    obtain ⟨m₁, hlook, hremoval⟩ := hsteps.of_append
    obtain ⟨hv, hshows, halike, hi⟩ := hpresent h hlook
    obtain ⟨e, he, _⟩ | ⟨o, m₂, _, hpolls, habsent, hfailures, hzones⟩ :=
      removal_of_mock hremoval hi
    · cases he
    · have hshows₂ : m₂.Shows s.project s.zone := by
        obtain ⟨hzone, hzoning, hreading⟩ := hshows.of_alike halike
        rw [← hzones] at hzone
        rw [← hfailures] at hzoning hreading
        exact ⟨hzone, hzoning, hreading⟩
      exact Vacant.of_alike ⟨hv, hshows₂, habsent⟩ (Mock.polls_alike hpolls)

end Scope

/-- The mock that has the instance of the small machine, where operations end with a fault. -/
def Mock.removingInVain : Mock :=
  { Mock.withSmall with
    pendingPolls := 1, operationFaults := [⟨"RESOURCE_IN_USE", "", "still attached"⟩] }

namespace Collaborators

variable {τ : Type} {c : Collaborators Mock τ} {m : Machine} {s : Scope}
  {t : Timeline (World Mock τ)}
  (hservice : c.service = Mock.service)

include hservice

/-- A removal that finds no instance asks for nothing to be removed. -/
theorem delete_ends_of_vacant (h : s.Vacant t.world.compute) :
    Ends never (c.delete s) t fun x u => x = .ok () ∧ u.world.compute = s.look t.world.compute := by
  have hanswers : c.service.Answers := hservice ▸ Mock.service_answers
  unfold delete
  refine ends_bind (instanceExists_ends hanswers) ?_
  rintro found v ⟨es, hes, hsteps, _⟩
  rw [hservice] at hsteps
  obtain ⟨rfl, hlook⟩ := hes.of_mock hsteps h.valid h.shows
  rw [h.absent]
  refine ends_bind ends_log fun _ w ⟨_, hw⟩ => ends_pure ⟨rfl, ?_⟩
  rw [hw, hlook]

section Vacant

variable (hacq : Scope.acquire c.defaultProject m = .ok s) (h : s.Vacant t.world.compute)

include hacq h

theorem perform_exists_ends_of_vacant : Ends never (c.perform .exists m) t fun y u =>
    y.result = .ok false ∧ u.world.compute = s.look t.world.compute := by
  have hv := h.valid
  rw [Scope.machine_of_acquire hacq] at hv
  refine (perform_exists_ends hservice hacq hv h.shows).weaken ?_
  rintro y u ⟨hy, hu, _⟩
  rw [h.absent] at hy
  exact ⟨hy, hu⟩

theorem perform_delete_ends_of_vacant : Ends never (c.perform .delete m) t fun y u =>
    y.result = .ok () ∧ u.world.compute = s.look t.world.compute := by
  let P : Except ActuatorError Unit × Scope → World Mock τ → Prop := fun x w =>
    x.1 = .ok () ∧ w.compute = s.look t.world.compute
  have hdelete : ∀ v, v.world = t.world → Ends never (c.reconcile s .delete) v
      fun x u => P x u.world := by
    intro v hv
    rw [← hv] at h
    refine ends_bind (Scope.holding_ends_of_never (delete_ends_of_vacant hservice h))
      fun x u hu => ends_pure ?_
    rwa [hv] at hu
  refine (perform_ends_of_reads (a := .delete) P rfl hacq hdelete).weaken ?_
  rintro _ u ⟨x, hx, rfl⟩
  exact hx

/-- An action that writes nothing leaves it so that the instance is not there. -/
theorem perform_alike_of_vacant {a : Action} (ha : a.persists = false) :
    Ends never (c.perform a m) t fun _ u => t.world.compute.Alike u.world.compute := by
  match a with
  | .exists =>
    refine (perform_exists_ends_of_vacant hservice hacq h).weaken fun _ u hu => ?_
    rw [hu.2]
    exact s.look_alike _
  | .delete =>
    refine (perform_delete_ends_of_vacant hservice hacq h).weaken fun _ u hu => ?_
    rw [hu.2]
    exact s.look_alike _
  | .create | .update => cases ha

/-- So do any number of them. -/
theorem performAll_alike_of_vacant {ops : List (Action × MachineStatus)}
    (hops : ∀ op ∈ ops, op.1.persists = false) :
    Ends never (c.performAll (ops.map fun op => (op.1, m.withStatus op.2))) t fun _ u =>
      t.world.compute.Alike u.world.compute := by
  induction ops generalizing t with
  | nil => exact ends_pure (.refl _)
  | cons op ops ih =>
    obtain ⟨hop, hrest⟩ := List.forall_mem_cons.mp hops
    have hacq' := Scope.acquire_withStatus hacq op.2
    refine ends_bind (perform_alike_of_vacant hservice hacq' (h.inStatus op.2) hop) fun _ u hu => ?_
    exact (ih (h.of_alike hu) hrest).weaken fun _ v hv => hu.trans hv

end Vacant

/-- A removal touches no other instance. Once it has succeeded, or its operation has not ended in
time or has ended with faults, the instance is not there; and however often one looks for it or
removes it then, it is told not to be there, and a further removal succeeds and asks for nothing but
the zone and the instance. -/
theorem delete_clears (hacq : Scope.acquire c.defaultProject m = .ok s)
    (t : Timeline (World Mock τ))
    (hget : ∀ e, t.world.compute.failures.find? .getInstance = some e → ¬e.isNotFound = true)
    (hdelete : ∀ e, t.world.compute.failures.find? .deleteInstance = some e →
      ¬e.isNotFound = true) :
    Ends (fun e u => c.polling.Stops e u.now ∧ t.world.compute.Frame s.key u.world.compute)
      (c.perform .delete m) t
      fun y u => t.world.compute.Frame s.key u.world.compute ∧ (Scope.Clears y.result →
        u.world.compute.instances.find? s.key = none ∧
        ∀ ops : List (Action × MachineStatus), (∀ op ∈ ops, op.1.persists = false) →
          Ends never (c.performAll (ops.map fun op => (op.1, m.withStatus op.2))) u fun _ v =>
            u.world.compute.Alike v.world.compute ∧ ∀ st,
              (Ends never (c.perform .exists (m.withStatus st)) v fun y' w =>
                y'.result = .ok false ∧ w.world.compute = s.look v.world.compute) ∧
              Ends never (c.perform .delete (m.withStatus st)) v fun y' w =>
                y'.result = .ok () ∧ w.world.compute = s.look v.world.compute) := by
  have hanswers : c.service.Answers := hservice ▸ Mock.service_answers
  let P : Except ActuatorError Unit × Scope → World Mock τ → Prop := fun x w =>
    t.world.compute.Frame s.key w.compute ∧ (Scope.Clears x.1 → s.Vacant w.compute)
  have hreconcile : ∀ v, v.world = t.world →
      Ends (fun e u => c.polling.Stops e u.now ∧ t.world.compute.Frame s.key u.world.compute)
        (c.reconcile s .delete) v fun x u => P x u.world := by
    intro v hv
    refine (reconcile_delete_ends hanswers).mono ?_ ?_
    · rintro e u ⟨hstop, _, es, hes, hsteps⟩
      rw [hservice, hv] at hsteps
      exact ⟨hstop, hes.frame hsteps⟩
    · rintro x u ⟨_, es, hes, hsteps, _⟩
      rw [hservice, hv] at hsteps
      exact ⟨hes.removing.frame hsteps, hes.vacant hsteps hget hdelete⟩
  refine (perform_ends_of_reads (a := .delete) P rfl hacq hreconcile).weaken ?_
  rintro _ u ⟨x, ⟨hframe, hx⟩, rfl⟩
  refine ⟨hframe, fun hclears => ⟨(hx hclears).absent, fun ops hops => ?_⟩⟩
  refine (performAll_alike_of_vacant hservice hacq (hx hclears) hops).weaken fun _ v hv =>
    ⟨hv, fun st => ?_⟩
  have hacq' := Scope.acquire_withStatus hacq st
  have hvacant := ((hx hclears).of_alike hv).inStatus st
  exact ⟨perform_exists_ends_of_vacant (s := s.inStatus st) hservice hacq' hvacant,
    perform_delete_ends_of_vacant (s := s.inStatus st) hservice hacq' hvacant⟩

omit hservice in
/-- The operation of the removal fails, and yet the instance is gone. -/
theorem delete_clears_inMemory : ∃ y u,
    exec ((inMemory default (some "lab")).perform .delete .small)
      (World.start .removingInVain .empty) = (.ok y, u) ∧
      y.result = .error (.operationFailed "operation-delete-1"
        [⟨"RESOURCE_IN_USE", "", "still attached"⟩]) ∧
      Scope.acquire (some "lab") .small = .ok .small ∧
      (∀ e, Mock.removingInVain.failures.find? .getInstance = some e → ¬e.isNotFound = true) ∧
      (∀ e, Mock.removingInVain.failures.find? .deleteInstance = some e → ¬e.isNotFound = true) ∧
      Mock.removingInVain.Frame Scope.small.key u.world.compute ∧
      u.world.compute.instances.find? Scope.small.key = none ∧
      ∀ ops : List (Action × MachineStatus), (∀ op ∈ ops, op.1.persists = false) →
        Ends never ((inMemory default (some "lab")).performAll
            (ops.map fun op => (op.1, Machine.small.withStatus op.2))) u fun _ v =>
          u.world.compute.Alike v.world.compute ∧ ∀ st,
            (Ends never
              ((inMemory default (some "lab")).perform .exists (Machine.small.withStatus st)) v
              fun y' w => y'.result = .ok false ∧
                w.world.compute = Scope.small.look v.world.compute) ∧
            Ends never
              ((inMemory default (some "lab")).perform .delete (Machine.small.withStatus st)) v
              fun y' w => y'.result = .ok () ∧
                w.world.compute = Scope.small.look v.world.compute := by
  obtain ⟨y, hrun, hresult⟩ := Outcome.exists_of_error
    (r := exec ((inMemory default (some "lab")).perform .delete .small)
      (World.start .removingInVain .empty))
    (e := .operationFailed "operation-delete-1" [⟨"RESOURCE_IN_USE", "", "still attached"⟩])
    (by decide +kernel)
  have hacq : Scope.acquire (some "lab") .small = .ok .small := rfl
  have hsound : ∀ method e, Mock.removingInVain.failures.find? method = some e →
      ¬e.isNotFound = true := by
    intro method e he
    cases he
  have hdelete := delete_clears (c := inMemory default (some "lab")) rfl hacq
    (World.start .removingInVain .empty) (hsound _) (hsound _)
  obtain ⟨hframe, hclears⟩ := hdelete.of_run hrun
  have hended : Scope.Clears y.result := by
    rw [hresult]
    exact .failed _ _
  obtain ⟨habsent, hlater⟩ := hclears hended
  exact ⟨y, _, hrun, hresult, hacq, hsound _, hsound _, hframe, habsent, hlater⟩

end Collaborators
end Provision
