import Provision.Proofs.Actions
import Provision.Proofs.Validation

/-!
Actions on a machine whose instance is kept by the service in memory.
-/
namespace Provision

open Timed

/-- An instance with an interface can be observed. -/
theorem Instance.exists_observation {i : Instance} (h : i.interfaces ≠ []) :
    ∃ o, i.observation? = some o := by
  unfold observation?
  cases hn : i.interfaces with
  | nil => exact absurd hn h
  | cons n ns => exact ⟨_, rfl⟩

namespace Scope

/-- Where the mock keeps the instance. -/
def key (s : Scope) : InstanceKey := (s.project, s.zone, s.name)

/-- The mock after the zone and the instance of a scope were asked for. -/
def look (s : Scope) (m : Mock) : Mock := (m.noted s.zoning).noted s.reading

theorem look_alike (s : Scope) (m : Mock) : m.Alike (s.look m) :=
  (Mock.noted_alike (q := s.zoning) nofun).trans (Mock.noted_alike (q := s.reading) nofun)

theorem look_reading_alike (s : Scope) (m : Mock) : m.Alike ((s.look m).noted s.reading) :=
  (s.look_alike m).trans (Mock.noted_alike (q := s.reading) nofun)

/-- What was asked for before does not count. -/
theorem cutShort_of_look {s : Scope} {m m' : Mock} {e : Halt} (h : (s.look m).CutShort m' e) :
    m.CutShort m' e where
  insertions := by rw [h.insertions, (s.look_alike m).insertions]
  lookups he := by
    have hzoning : (m.noted s.zoning).lookups = m.lookups := Mock.lookups_noted nofun
    have hreading : (s.look m).lookups = (m.noted s.zoning).lookups := Mock.lookups_noted nofun
    rw [h.lookups he, hreading, hzoning]
  pendingPolls := h.pendingPolls

/-- The mock serves, and what it has of the instance shows as `o`. -/
structure Stands (s : Scope) (m : Mock) (o : Observation) : Prop where
  serves : m.Serves s.project s.zone
  seen : ∃ i, m.instances.find? s.key = some i ∧ i.observation? = some o

variable {s : Scope} {m m' : Mock}

theorem Stands.of_alike {o : Observation} (h : s.Stands m o) (ha : m.Alike m') : s.Stands m' o where
  serves := h.serves.of_alike ha
  seen := by
    rw [ha.instances]
    exact h.seen

theorem stands_inStatus {o : Observation} {st : MachineStatus} :
    (s.inStatus st).Stands m o ↔ s.Stands m o :=
  ⟨fun h => ⟨h.serves, h.seen⟩, fun h => ⟨h.serves, h.seen⟩⟩

/-- On the mock, looking for the instance tells whether it is there. -/
theorem Looked.of_mock {x : Except ActuatorError Bool} {es : List Exchange} (h : s.Looked x es)
    (hsteps : Mock.service.Steps m es m') (hv : s.machine.validationError? = none)
    (hs : m.Shows s.project s.zone) :
    x = .ok (m.instances.find? s.key).isSome ∧ m' = s.look m := by
  have hz := Mock.reply_getZone hs
  cases h with
  | invalid he =>
    rw [hv] at he
    cases he
  | misplaced _ e =>
    have hr := Mock.reply_of_step hsteps.single
    rw [hz] at hr
    cases hr
  | looked _ z r =>
    cases hsteps with
    | cons first rest =>
      have hr := Mock.reply_of_step first
      rw [hz] at hr
      cases hr
      have hr' := Mock.reply_of_step rest.single
      have hs' := hs.of_alike (Mock.noted_alike (q := s.zoning) nofun)
      cases hi : m.instances.find? s.key with
      | some i =>
        rw [Mock.reply_getInstance hs'.reading hi] at hr'
        cases hr'
        exact ⟨rfl, rfl⟩
      | none =>
        rw [Mock.reply_getInstance_absent hs'.reading hi] at hr'
        cases hr'
        exact ⟨rfl, rfl⟩

/-- On the mock, the insertion of an absent instance is granted, and the instance is there at
once. -/
theorem insertion_of_mock {data : String} {r : Reply (s.insertion data)} {es : List Exchange}
    (hsteps : Mock.service.Steps m (⟨s.insertion data, r⟩ :: es) m')
    (hs : m.Serves s.project s.zone) (hi : m.instances.find? s.key = none) :
    ∃ o m₁, r = .ok o ∧ Mock.service.Steps m₁ es m' ∧ m₁.Serves s.project s.zone ∧
      m.Makes s.project s.zone (s.machine.request s.project data) o m₁ := by
  obtain ⟨o, m₁, hreply, h⟩ :=
    Mock.reply_insertInstance (i := s.machine.request s.project data) (hs.find?_failures _) hi
  cases hsteps with
  | cons first rest =>
    have hr := Mock.reply_of_step first
    rw [hreply] at hr
    obtain ⟨rfl, rfl⟩ := Prod.mk.inj hr
    exact ⟨o, _, rfl, rest, ⟨h.failures.trans hs.failures, h.missingZones ▸ hs.zone⟩, h⟩

/-- On the mock, an attempt on a valid machine with its boot data makes an absent instance, whatever
comes of the operation then. -/
theorem Attempt.of_mock {data : String} {result : Except ActuatorError Unit} {es : List Exchange}
    {r : Reply s.reading} (h : s.Attempt (.ok (.ok data)) result es)
    (hsteps : Mock.service.Steps m (es ++ [⟨s.reading, r⟩]) m')
    (hv : s.machine.validationError? = none) (hs : m.Serves s.project s.zone)
    (hi : m.instances.find? s.key = none) :
    m'.Serves s.project s.zone ∧ m'.insertions = m.insertions + 1 ∧
      m'.instances.find? s.key =
        some (Mock.created (m.nextId + 1) s.zone (s.machine.request s.project data)) := by
  cases h with
  | invalid he =>
    rw [hv] at he
    cases he
  | unresolved _ hb => cases hb
  | refused _ hb e =>
    cases hb
    obtain ⟨_, _, hr, _⟩ := insertion_of_mock hsteps hs hi
    cases hr
  | waited _ hb o rs _ =>
    cases hb
    obtain ⟨_, m₁, _, rest, hs₁, hmakes⟩ := insertion_of_mock hsteps hs hi
    have hfind := hmakes.found
    -- However the polls go, they leave the instance for the read.
    obtain ⟨m₂, hpolls, hread⟩ := rest.of_append
    have ha := Mock.polls_alike hpolls
    have hs₂ := hs₁.of_alike ha
    rw [← ha.instances] at hfind
    have hr := Mock.reply_of_step hread.single
    have hfound : m₂.reply s.reading = _ := Mock.reply_getInstance (hs₂.find?_failures _) hfind
    rw [hfound] at hr
    obtain ⟨rfl, rfl⟩ := Prod.mk.inj hr
    have hn := Mock.noted_alike (m := m₂) (q := s.reading) nofun
    refine ⟨hs₂.of_alike hn, ?_, hfind⟩
    rw [← hmakes.insertions, ← ha.insertions]
    exact hn.insertions

/-- On the mock, an attempt that is cut short has asked for the instance once. -/
theorem CutShort.of_mock {data : String} {e : Halt} {es : List Exchange}
    (h : s.CutShort (.ok (.ok data)) e es) (hsteps : Mock.service.Steps m es m')
    (hs : m.Serves s.project s.zone) (hi : m.instances.find? s.key = none) : m.CutShort m' e := by
  cases h with
  | waiting _ hb o rs hrs =>
    cases hb
    obtain ⟨_, m₁, ho, rest, hs₁, hmakes⟩ := insertion_of_mock hsteps hs hi
    cases ho
    obtain ⟨hlength, hlookups⟩ :=
      Mock.length_le_remaining rest (hs₁.find?_failures _) hmakes.tracked hrs.pending
    rw [hmakes.lookups] at hlookups
    exact {
      insertions := (Mock.polls_alike rest).insertions.trans hmakes.insertions
      lookups := fun he => hrs.counted he ▸ hlookups
      pendingPolls := fun he => hrs.counted he ▸ hlength }

/-- What is made for a valid machine has an interface. -/
theorem interfaces_created_ne_nil (hv : s.machine.validationError? = none)
    (id : UInt64) (data : String) :
    (Mock.created id s.zone (s.machine.request s.project data)).interfaces ≠ [] := by
  intro hnil
  have hi := List.map_eq_nil_iff.mp (List.map_eq_nil_iff.mp hnil)
  exact Machine.interfaces_ne_nil hv hi

end Scope

namespace Collaborators

section Look

variable {τ : Type} {c : Collaborators Mock τ} {m : Machine} {s : Scope}
  {t : Timeline (World Mock τ)}

/-- Where looks do not fail, one tells whether the instance is there. -/
theorem perform_exists_ends (hservice : c.service = Mock.service)
    (hacq : Scope.acquire c.defaultProject m = .ok s) (hv : m.validationError? = none)
    (hs : t.world.compute.Shows s.project s.zone) :
    Ends never (c.perform .exists m) t fun y u =>
      y.result = .ok (t.world.compute.instances.find? s.key).isSome ∧
        u.world.compute = s.look t.world.compute ∧ t.world.SameRecords u.world := by
  have hanswers : c.service.Answers := hservice ▸ Mock.service_answers
  have hsm := Scope.machine_of_acquire hacq
  let P : Except ActuatorError Bool × Scope → World Mock τ → Prop := fun x w =>
    x.1 = .ok (t.world.compute.instances.find? s.key).isSome ∧ w.compute = s.look t.world.compute ∧
      t.world.SameRecords w
  have hlook : ∀ v, v.world = t.world → Ends never (c.reconcile s .exists) v
      fun x u => P x u.world := by
    intro v hw
    refine (reconcile_exists_ends hanswers).weaken fun x u ⟨es, hes, hsteps, hu⟩ => ?_
    rw [hservice, hw] at hsteps
    rw [hw] at hu
    obtain ⟨hx, hc⟩ := hes.of_mock hsteps (hsm ▸ hv) hs
    exact ⟨hx, hc, hu⟩
  refine (perform_ends_of_reads (a := .exists) P rfl hacq hlook).weaken ?_
  rintro _ u ⟨x, hx, rfl⟩
  exact hx

end Look

section Perform

variable {τ : Type} {c : Collaborators Mock τ} {m : Machine} {s : Scope}
  {t : Timeline (World Mock (List Write × τ))} (hservice : c.service = Mock.service)
  (hacq : Scope.acquire c.defaultProject m = .ok s)

include hservice in
theorem journaled_service_answers : c.journaled.service.Answers := by
  change c.service.Answers
  rw [hservice]
  exact Mock.service_answers

include hservice hacq

/-- Updating a machine whose instance can be observed makes its status show just that, and writes it
unless it did before. -/
theorem perform_update_ends (hm : c.machines.Takes) {o : Observation}
    (h : s.Stands t.world.compute o) {b : Machine}
    (hb : b.statusAfter t.world.storage.1 = m.status) :
    Ends never (c.journaled.perform .update m) t fun _ u =>
      u.world.compute = t.world.compute.noted s.reading ∧ u.world.events = t.world.events ∧
        b.statusAfter u.world.storage.1 = s.projection o ∧
        (m.status = s.projection o → u.world.storage = t.world.storage) := by
  have hanswers := journaled_service_answers hservice
  obtain ⟨i, hi, ho⟩ := h.seen
  have horigin : s.origin = m.status := by
    obtain ⟨_, rfl⟩ := Scope.acquire_eq_ok.mp hacq
    rfl
  let P : Except ActuatorError Unit × Scope → World Mock (List Write × τ) → Prop := fun x w =>
    w.compute = t.world.compute.noted s.reading ∧ t.world.SameRecords w ∧
      x.2.status = s.projection o ∧ x.2.origin = s.origin
  have hupdate : ∀ v, v.now = t.now → v.world = t.world →
      Ends never (c.journaled.reconcile s .update) v fun x u => P x u.world := by
    intro v _ hw
    refine (reconcile_update_ends hanswers).weaken ?_
    rintro _ u ⟨r, hr, hu, rfl⟩
    rw [hw] at hr hu
    have hr' : Mock.service.Step s.reading t.world.compute r u.world.compute := by
      rw [← hservice]
      exact hr
    have hreply := Mock.reply_of_step hr'
    have hfound : t.world.compute.reply s.reading = _ :=
      Mock.reply_getInstance (h.serves.find?_failures _) hi
    rw [hfound] at hreply
    obtain ⟨rfl, hc⟩ := Prod.mk.inj hreply
    rw [Scope.readResult_of_seen ho, Scope.read_of_seen ho]
    exact ⟨hc, hu, rfl, rfl⟩
  have hperform := perform_ends_of_persists (a := .update) P rfl hacq hm hupdate
  refine hperform.weaken ?_
  rintro _ u ⟨x, w, closed, ⟨hc, ⟨hst, he⟩, hx, hxo⟩, hclosed, rfl⟩
  have hframe := hclosed.frame
  have horigin' := hxo.trans horigin
  refine ⟨hframe.1.trans hc, hframe.2.trans he, ?_, ?_⟩
  · rw [← hx]
    refine hclosed.statusAfter ?_
    rw [hst, hb, horigin']
  · intro hshown
    rw [hclosed.eq_of_clean (hx.trans (hshown.symm.trans horigin'.symm)), hst]

/-- Making an absent instance leaves it there to be observed, whatever the result is, and asks for
it once. -/
theorem perform_create_ends (hk : c.secrets.Answers) {may : StoreError → Prop}
    (hm : c.machines.Answers may) (hv : m.validationError? = none)
    (hdata : c.secrets.Resolves m t.world.storage.2) (hs : t.world.compute.Serves s.project s.zone)
    (hi : t.world.compute.instances.find? s.key = none) :
    Ends (fun e u => c.polling.Stops e u.now ∧ t.world.compute.CutShort u.world.compute e)
      (c.journaled.perform .create m) t fun _ u =>
      (∃ o, s.Stands u.world.compute o) ∧
        u.world.compute.insertions = t.world.compute.insertions + 1 := by
  have hanswers := journaled_service_answers hservice
  have hsm := Scope.machine_of_acquire hacq
  have hv' : s.machine.validationError? = none := hsm ▸ hv
  let P : Except ActuatorError Unit × Scope → World Mock (List Write × τ) → Prop := fun _ w =>
    (∃ o, s.Stands w.compute o) ∧ w.compute.insertions = t.world.compute.insertions + 1
  have hcreate : ∀ v, v.now = t.now → v.world = t.world →
      Ends (fun e u => c.polling.Stops e u.now ∧ t.world.compute.CutShort u.world.compute e)
        (c.journaled.reconcile s .create) v fun x u => P x u.world := by
    intro v _ hw
    have hresolves : c.journaled.secrets.Resolves s.machine v.world.storage := by
      rw [hw, hsm]
      exact hdata.beside
    obtain ⟨boot, v', hboot, data, rfl⟩ := (userData_ends_of_resolves hresolves).returns
    refine (create_ends hanswers hk.beside).mono ?_ ?_
    · rintro e u ⟨hstop, _, es, hes, hsteps⟩
      rw [hboot] at hes
      have hsteps' : Mock.service.Steps t.world.compute es u.world.compute := by
        rw [← hservice, ← hw]
        exact hsteps
      exact ⟨hstop, hes.of_mock hsteps' hs hi⟩
    · rintro x u ⟨es, r, hes, hsteps, _⟩
      rw [hboot] at hes
      have hsteps' :
          Mock.service.Steps t.world.compute (es ++ [⟨s.reading, r⟩]) u.world.compute := by
        rw [← hservice, ← hw]
        exact hsteps
      obtain ⟨hserves, hcount, hfind⟩ := hes.of_mock hsteps' hv' hs hi
      have hne := Scope.interfaces_created_ne_nil hv' (t.world.compute.nextId + 1) data
      obtain ⟨o, ho⟩ := Instance.exists_observation hne
      exact ⟨⟨o, hserves, _, hfind, ho⟩, hcount⟩
  have hperform := perform_ends_of_persists (a := .create) P rfl hacq hm hcreate
  refine hperform.weaken ?_
  rintro _ u ⟨x, w, closed, hw, hclosed, rfl⟩
  rw [hclosed.frame.1]
  exact hw

end Perform

end Collaborators
end Provision
