import Provision.Proofs.Actions

/-!
Removing an instance. Whatever the service replies, a removal is asked for once at most and only of
an instance that was seen just before, and only the operation that came of it is waited for.
-/
namespace Provision

open Timed

namespace Scope

/-- The request to remove the instance. -/
abbrev removal (s : Scope) : Call := .deleteInstance s.project s.zone s.name

/-- The request to look at an operation. -/
abbrev polling (s : Scope) (o : Operation) : Call := .getOperation s.project s.zone o.name

/-- The exchanges of a removal as far as it has come. -/
inductive Removing (s : Scope) : List Exchange → Prop
  | looked {x : Except ActuatorError Bool} {es : List Exchange} (h : s.Looked x es) : Removing s es
  | refused {es : List Exchange} (h : s.Looked (.ok true) es) (e : ComputeError) :
      Removing s (es ++ [⟨s.removal, .error e⟩])
  | waiting {es : List Exchange} (h : s.Looked (.ok true) es) (o : Operation)
      (rs : List (Except ComputeError Operation)) :
      Removing s (es ++ [⟨s.removal, .ok o⟩] ++ Service.polls s.project s.zone o.name rs)

/-- How a removal comes out, and the exchanges on the way. -/
inductive Removed (s : Scope) : Except ActuatorError Unit → List Exchange → Prop
  | unsure {e : ActuatorError} {es : List Exchange} (h : s.Looked (.error e) es) :
      Removed s (.error e) es
  | absent {es : List Exchange} (h : s.Looked (.ok false) es) : Removed s (.ok ()) es
  | vanished {es : List Exchange} (h : s.Looked (.ok true) es) {e : ComputeError}
      (he : e.isNotFound = true) :
      Removed s (.ok ()) (es ++ [⟨s.removal, .error e⟩])
  | refused {es : List Exchange} (h : s.Looked (.ok true) es) {e : ComputeError}
      (he : ¬e.isNotFound = true) :
      Removed s (.error (s.callFailed "delete" e)) (es ++ [⟨s.removal, .error e⟩])
  | waited {es : List Exchange} (h : s.Looked (.ok true) es) (o : Operation)
      (rs : List (Except ComputeError Operation))
      {y : Except (PollError Operation ComputeError) (Operation × Nat)}
      (hy : PollOutcome (rs.map Service.progress) y) :
      Removed s ((Service.waited s.project s.zone o.name y).map fun _ => ())
        (es ++ [⟨s.removal, .ok o⟩] ++ Service.polls s.project s.zone o.name rs)

/-- What may be asked once these exchanges were made. -/
def Permits (s : Scope) (before : List Exchange) (q : Call) : Prop :=
  match q with
  | .getZone .. => q = s.zoning
  | .getInstance .. => q = s.reading
  | .insertInstance .. => False
  | .deleteInstance .. =>
    q = s.removal ∧ s.machine.validationError? = none ∧ (∃ z, ⟨s.zoning, .ok z⟩ ∈ before) ∧
      (∃ i, ⟨s.reading, .ok i⟩ ∈ before) ∧ ∀ e ∈ before, e.1.method ≠ .deleteInstance
  | .getOperation .. => ∃ o, ⟨s.removal, .ok o⟩ ∈ before ∧ q = s.polling o

/-- Each call was permitted when it was made. -/
inductive Lawful (s : Scope) : List Exchange → Prop
  | nil : Lawful s []
  | next {es : List Exchange} (h : Lawful s es) (e : Exchange) (hp : s.Permits es e.1) :
      Lawful s (es ++ [e])

/-- What makes a removal a success: the instance is not found, before or by the removal, or the
operation was seen to be done and to have no fault. -/
inductive Gone (s : Scope) (es : List Exchange) : Prop
  | absent {e : ComputeError} (he : e.isNotFound = true) (h : ⟨s.reading, .error e⟩ ∈ es)
  | vanished {e : ComputeError} (he : e.isNotFound = true) (h : ⟨s.removal, .error e⟩ ∈ es)
  | done {o o' : Operation} (h : ⟨s.removal, .ok o⟩ ∈ es) (h' : ⟨s.polling o, .ok o'⟩ ∈ es)
      (hd : o'.isDone = true) (hf : o'.faultList = [])

variable {s : Scope} {es : List Exchange}

/-- An instance that is found was seen in a zone that is there. -/
theorem Looked.of_present (h : s.Looked (.ok true) es) : s.machine.validationError? = none ∧
    ∃ z i, es = [⟨s.zoning, .ok z⟩, ⟨s.reading, .ok i⟩] := by
  generalize hx : (Except.ok true : Except ActuatorError Bool) = x at h
  cases h with
  | invalid => cases hx
  | misplaced => cases hx
  | looked hv z r =>
    cases r with
    | ok i => exact ⟨hv, z, i, rfl⟩
    | error e =>
      simp only [found] at hx
      split at hx <;> cases hx

theorem Looked.of_absent (h : s.Looked (.ok false) es) :
    ∃ z e, e.isNotFound = true ∧ es = [⟨s.zoning, .ok z⟩, ⟨s.reading, .error e⟩] := by
  generalize hx : (Except.ok false : Except ActuatorError Bool) = x at h
  cases h with
  | invalid => cases hx
  | misplaced => cases hx
  | looked _ z r =>
    cases r with
    | ok i => cases hx
    | error e =>
      by_cases he : e.isNotFound = true
      · exact ⟨z, e, he, rfl⟩
      · rw [found, if_neg he] at hx
        cases hx

/-- A look that failed found nothing that is gone. -/
theorem Looked.not_gone {e : ActuatorError} (h : s.Looked (.error e) es) : ¬s.Gone es := by
  generalize hx : (Except.error e : Except ActuatorError Bool) = x at h
  intro hg
  cases h with
  | invalid => obtain ⟨_, hm⟩ | ⟨_, hm⟩ | ⟨hm, _, _, _⟩ := hg <;> cases hm
  | misplaced _ e' => obtain ⟨_, hm⟩ | ⟨_, hm⟩ | ⟨hm, _, _, _⟩ := hg <;> simp at hm
  | looked _ z r =>
    obtain ⟨he, hm⟩ | ⟨_, hm⟩ | ⟨hm, _, _, _⟩ := hg
    · obtain rfl : r = .error _ := by simpa [eq_comm] using hm
      rw [found, if_pos he] at hx
      cases hx
    · simp at hm
    · simp at hm

theorem Lawful.polls {o : Operation} (h : s.Lawful es) (ho : ⟨s.removal, .ok o⟩ ∈ es)
    (rs : List (Except ComputeError Operation)) :
    s.Lawful (es ++ Service.polls s.project s.zone o.name rs) := by
  induction rs generalizing es with
  | nil =>
    change s.Lawful (es ++ [])
    rwa [List.append_nil]
  | cons r rs ih =>
    have hnext : s.Lawful (es ++ [⟨s.polling o, r⟩]) := h.next _ ⟨o, ho, rfl⟩
    have hrest := ih hnext (List.mem_append_left _ ho)
    rwa [List.append_assoc] at hrest

theorem Looked.lawful {x : Except ActuatorError Bool} (h : s.Looked x es) : s.Lawful es := by
  cases h with
  | invalid => exact .nil
  | misplaced _ e => exact Lawful.nil.next ⟨s.zoning, .error e⟩ rfl
  | looked _ z r => exact (Lawful.nil.next ⟨s.zoning, .ok z⟩ rfl).next ⟨s.reading, r⟩ rfl

theorem Lawful.removal (h : s.Looked (.ok true) es) (r : Reply s.removal) :
    s.Lawful (es ++ [⟨s.removal, r⟩]) := by
  have hes := h.lawful
  obtain ⟨hv, z, i, rfl⟩ := h.of_present
  refine hes.next ⟨s.removal, r⟩ ⟨rfl, hv, ⟨z, ?_⟩, ⟨i, ?_⟩, ?_⟩
  · simp
  · simp
  · simp [Call.method]

theorem Removing.lawful (h : s.Removing es) : s.Lawful es := by
  cases h with
  | looked h => exact h.lawful
  | refused h e => exact .removal h (.error e)
  | waiting h o rs => exact (Lawful.removal h (.ok o)).polls (by simp) rs

theorem Lawful.countP_removal_le (h : s.Lawful es) :
    es.countP (fun e => e.1.method = .deleteInstance) ≤ 1 := by
  induction h with
  | nil => exact Nat.zero_le _
  | @next es _ e hp ih =>
    rw [List.countP_append, List.countP_singleton]
    split
    next hd =>
      have hnone : es.countP (fun e => e.1.method = .deleteInstance) = 0 := by
        obtain ⟨q, r⟩ := e
        cases q with
        | deleteInstance project zone name =>
          rw [List.countP_eq_zero]
          intro e he
          simpa using hp.2.2.2.2 e he
        | _ => simp [Call.method] at hd
      omega
    next => omega

end Scope

namespace Service

variable {project zone operation : String} {rs : List (Except ComputeError Operation)}

theorem done_mem_progress {o : Operation} :
    .ok (.done o) ∈ rs.map progress ↔ .ok o ∈ rs ∧ o.isDone = true := by
  constructor
  · intro h
    obtain ⟨r, hr, hp⟩ := List.mem_map.mp h
    cases r with
    | error e => cases hp
    | ok a =>
      by_cases ha : a.isDone = true
      · rw [progress, if_pos ha] at hp
        cases hp
        exact ⟨hr, ha⟩
      · rw [progress, if_neg ha] at hp
        cases hp
  · rintro ⟨h, hd⟩
    refine List.mem_map.mpr ⟨.ok o, h, ?_⟩
    rw [progress, if_pos hd]

/-- Waiting succeeds exactly when a look saw the operation done and without a fault. -/
theorem waited_eq_ok_iff {y : Except (PollError Operation ComputeError) (Operation × Nat)}
    (hy : PollOutcome (rs.map progress) y) :
    (waited project zone operation y).map (fun _ => ()) = .ok () ↔
      ∃ o, .ok o ∈ rs ∧ o.isDone = true ∧ o.faultList = [] := by
  simp only [← and_assoc, ← done_mem_progress]
  generalize rs.map progress = xs at hy
  -- All looks but the last saw the operation pending.
  cases hy with
  | done as a =>
    by_cases ha : a.faultList = [] <;> simp [waited, ha, Except.map]
  | aborted as e => simp [waited, Except.map]
  | timeout as a elapsed => simp [waited, Except.map]

end Service

namespace Scope

variable {s : Scope} {es : List Exchange} {x : Except ActuatorError Unit}

theorem Removed.removing (h : s.Removed x es) : s.Removing es := by
  cases h with
  | unsure h => exact .looked h
  | absent h => exact .looked h
  | vanished h _ => exact .refused h _
  | refused h _ => exact .refused h _
  | waited h o rs _ => exact .waiting h o rs

/-- A removal succeeds exactly when the instance is gone. -/
theorem Removed.ok_iff_gone (h : s.Removed x es) : x = .ok () ↔ s.Gone es := by
  cases h with
  | unsure h => exact ⟨nofun, fun hg => absurd hg h.not_gone⟩
  | absent h =>
    obtain ⟨z, e, he, rfl⟩ := h.of_absent
    exact ⟨fun _ => .absent he (by simp), fun _ => rfl⟩
  | vanished h he => exact ⟨fun _ => .vanished he (by simp), fun _ => rfl⟩
  | @refused _ h e he =>
    obtain ⟨_, z, i, rfl⟩ := h.of_present
    refine ⟨nofun, fun hg => ?_⟩
    obtain ⟨_, hm⟩ | ⟨he', hm⟩ | ⟨hm, _, _, _⟩ := hg
    · simp at hm
    · obtain rfl : _ = e := by simpa using hm
      exact absurd he' he
    · simp at hm
  | waited h o rs hy =>
    obtain ⟨_, z, i, rfl⟩ := h.of_present
    rw [Service.waited_eq_ok_iff hy]
    constructor
    · rintro ⟨o', ho', hd, hf⟩
      refine .done (o := o) (by simp) ?_ hd hf
      exact List.mem_append_right _ (List.mem_map.mpr ⟨.ok o', ho', rfl⟩)
    · intro hg
      obtain ⟨_, hm⟩ | ⟨_, hm⟩ | ⟨_, hm, hd, hf⟩ := hg
      · simp [Service.polls] at hm
      · simp [Service.polls] at hm
      · obtain ⟨hseen, _⟩ : .ok _ ∈ rs ∧ _ := by simpa [Service.polls] using hm
        exact ⟨_, hseen, hd, hf⟩

/-- A removal that was granted fails unless its operation was seen to be done and to have no
fault. -/
theorem Removed.error_of_unfinished (h : s.Removed x es) {o : Operation}
    (ho : ⟨s.removal, .ok o⟩ ∈ es)
    (hunfinished : ∀ o', ⟨s.polling o, .ok o'⟩ ∈ es → o'.isDone = true → o'.faultList ≠ []) :
    ∃ e, x = .error e := by
  cases h with
  | unsure h => exact ⟨_, rfl⟩
  | refused h he => exact ⟨_, rfl⟩
  | absent h =>
    obtain ⟨z, e, _, rfl⟩ := h.of_absent
    simp at ho
  | vanished h he =>
    obtain ⟨_, z, i, rfl⟩ := h.of_present
    simp at ho
  | @waited _ h o₀ rs y hy =>
    obtain ⟨_, z, i, rfl⟩ := h.of_present
    obtain rfl : o = o₀ := by simpa [Service.polls] using ho
    cases hy' : (Service.waited s.project s.zone o.name y).map fun _ => () with
    | error e => exact ⟨e, rfl⟩
    | ok _ =>
      obtain ⟨o', ho', hd, hf⟩ := (Service.waited_eq_ok_iff hy).mp hy'
      have hseen : ⟨s.polling o, .ok o'⟩ ∈ Service.polls s.project s.zone o.name rs :=
        List.mem_map.mpr ⟨.ok o', ho', rfl⟩
      exact absurd hf (hunfinished o' (List.mem_append_right _ hseen) hd)

end Scope

/-- The mock that has the instance of the small machine. -/
def Mock.withSmall : Mock :=
  Mock.new.seed "lab" "us-east1-c" { (default : Instance) with name := "worker-0" }

namespace Collaborators

variable {σ τ : Type} {c : Collaborators σ τ} {s : Scope} {t : Timeline (World σ τ)}

/-- All that removing an instance does. -/
theorem delete_ends (hs : c.service.Answers) :
    Ends (fun e u => c.polling.Stops e u.now ∧ t.world.SameRecords u.world ∧
        ∃ es, s.Removing es ∧ c.service.Steps t.world.compute es u.world.compute) (c.delete s) t
      fun x u => ∃ es, s.Removed x es ∧ c.service.Steps t.world.compute es u.world.compute ∧
        t.world.SameRecords u.world := by
  unfold delete
  refine ends_bind (instanceExists_ends hs).of_never fun found v ⟨es, hes, hsteps, hv⟩ => ?_
  match found with
  | .error e => exact ends_pure ⟨es, .unsure hes, hsteps, hv⟩
  | .ok false =>
    refine ends_bind ends_log fun _ w ⟨_, hw⟩ => ends_pure ⟨es, .absent hes, ?_⟩
    rw [hw]
    exact ⟨hsteps, hv⟩
  | .ok true =>
    refine ends_bind ends_log fun _ w ⟨_, hw⟩ => ?_
    refine ends_bind (call_ends hs s.removal).of_never fun r u ⟨hr, hu⟩ => ?_
    rw [hw] at hr hu
    have hsteps' := hsteps.append hr.steps
    have hu' := hv.trans hu
    match r with
    | .error e =>
      by_cases he : e.isNotFound = true
      · simp only [he, if_true]
        refine ends_bind ends_log fun _ z ⟨_, hz⟩ => ends_pure ⟨_, .vanished hes he, ?_⟩
        rw [hz]
        exact ⟨hsteps', hu'⟩
      · simp only [he]
        exact ends_pure ⟨_, .refused hes he, hsteps', hu'⟩
    | .ok o =>
      refine ends_bind ((wait_ends hs s.project s.zone o.name).mono ?_ fun _ _ hq => hq) ?_
      · rintro e z ⟨hstop, ⟨rs, _, hp⟩, hz⟩
        exact ⟨hstop, hu'.trans hz, _, .waiting hes o rs, hsteps'.append hp⟩
      · rintro x z ⟨rs, y, hy, hx, hp, hz⟩
        have hremoved : s.Removed (x.map fun _ => ())
            (es ++ [⟨s.removal, .ok o⟩] ++ Service.polls s.project s.zone o.name rs) := by
          rw [hx]
          exact .waited hes o rs hy
        match x with
        | .error e => exact ends_pure ⟨_, hremoved, hsteps'.append hp, hu'.trans hz⟩
        | .ok o' =>
          refine ends_bind ends_log fun _ z' ⟨_, hz'⟩ => ends_pure ⟨_, hremoved, ?_⟩
          rw [hz']
          exact ⟨hsteps'.append hp, hu'.trans hz⟩

theorem reconcile_delete_ends (hs : c.service.Answers) :
    Ends (fun e u => c.polling.Stops e u.now ∧ t.world.SameRecords u.world ∧
        ∃ es, s.Removing es ∧ c.service.Steps t.world.compute es u.world.compute)
      (c.reconcile s .delete) t
      fun x u => x.2 = s ∧ ∃ es, s.Removed x.1 es ∧
        c.service.Steps t.world.compute es u.world.compute ∧ t.world.SameRecords u.world := by
  refine ends_bind (Scope.holding_ends (delete_ends hs) ?_) fun x u hu => ends_pure ⟨rfl, hu⟩
  intro e u v hstop hn hw
  rwa [hn, hw]

/-- Whatever the service replies, each call of a removal is permitted when it is made, status and
events stay as they were, and the removal succeeds exactly when the instance is gone. One that is
cut short has kept to the same rules. -/
theorem delete_safety {c : Collaborators σ τ} (hs : c.service.Answers) (s : Scope)
    (t : Timeline (World (List Exchange × σ) τ)) :
    Ends (fun e u => c.polling.Stops e u.now ∧ t.world.SameRecords u.world ∧ ∃ es,
        u.world.compute.1 = t.world.compute.1 ++ es ∧ s.Lawful es ∧
        es.countP (fun e => e.1.method = .deleteInstance) ≤ 1)
      (c.traced.reconcile s .delete) t fun x u => x.2 = s ∧ t.world.SameRecords u.world ∧ ∃ es,
      u.world.compute.1 = t.world.compute.1 ++ es ∧ s.Lawful es ∧
        es.countP (fun e => e.1.method = .deleteInstance) ≤ 1 ∧ (x.1 = .ok () ↔ s.Gone es) ∧
        ∀ o, ⟨s.removal, .ok o⟩ ∈ es →
          (∀ o', ⟨s.polling o, .ok o'⟩ ∈ es → o'.isDone = true → o'.faultList ≠ []) →
            ∃ e, x.1 = .error e := by
  refine (reconcile_delete_ends (c := c.traced) hs.traced).mono ?_ ?_
  · rintro e u ⟨hstop, hrecords, es, hes, hsteps⟩
    have hlawful := hes.lawful
    exact ⟨hstop, hrecords, es, hsteps.of_traced.1, hlawful, hlawful.countP_removal_le⟩
  · rintro x u ⟨hx, es, hes, hsteps, hrecords⟩
    have hlawful := hes.removing.lawful
    refine ⟨hx, hrecords, es, hsteps.of_traced.1, hlawful, hlawful.countP_removal_le,
      hes.ok_iff_gone, ?_⟩
    intro o ho hunfinished
    exact hes.error_of_unfinished ho hunfinished

theorem delete_safety_inMemory :
    Mock.service.Answers ∧
      Ends (fun e u => (default : PollConfig).Stops e u.now ∧
          (World.start ([], Mock.withSmall) MachineTable.empty).world.SameRecords u.world ∧ ∃ es,
          u.world.compute.1 = es ∧ Scope.small.Lawful es ∧
          es.countP (fun e => e.1.method = .deleteInstance) ≤ 1)
        ((inMemory default none).traced.reconcile .small .delete)
        (World.start ([], .withSmall) .empty)
        fun x u => x.2 = .small ∧
          (World.start ([], Mock.withSmall) MachineTable.empty).world.SameRecords u.world ∧ ∃ es,
          u.world.compute.1 = es ∧ Scope.small.Lawful es ∧
          es.countP (fun e => e.1.method = .deleteInstance) ≤ 1 ∧
            (x.1 = .ok () ↔ Scope.small.Gone es) ∧
          ∀ o, ⟨Scope.small.removal, .ok o⟩ ∈ es →
            (∀ o', ⟨Scope.small.polling o, .ok o'⟩ ∈ es → o'.isDone = true → o'.faultList ≠ []) →
            ∃ e, x.1 = .error e :=
  ⟨Mock.service_answers,
    delete_safety (c := inMemory default none) Mock.service_answers .small
      (World.start ([], .withSmall) .empty)⟩

end Collaborators
end Provision
