import Provision.Proofs.Creation.Conclusion

/-!
The outcome of making an instance and the read of it do not mix. What is reported comes from the
attempt alone, whatever the read shows, and what is observed comes from the read alone, whatever
became of the attempt.
-/
namespace Provision

open Timed

/-- Two services that differ in what they reply to reads of instances at most. -/
def Service.AgreeButOnReads {σ : Type} (s s' : Service σ) : Prop :=
  ∀ q, q.method ≠ .getInstance → s' q = s q

theorem Service.AgreeButOnReads.traced {σ : Type} {s s' : Service σ} (h : s.AgreeButOnReads s') :
    s.traced.AgreeButOnReads s'.traced := by
  intro q hq
  unfold Service.traced
  rw [h q hq]

namespace Collaborators

variable {σ τ : Type} {c : Collaborators σ τ} {other : Service σ} {s : Scope}
  {t : Timeline (World σ τ)}

/-- What making an instance reports: its result, the events, and the failure in the status. -/
def reported (x : Except Halt (Except ActuatorError Unit × Scope) × Timeline (World σ τ)) :
    Except Halt (Except ActuatorError Unit × List Event × Option ErrorReason × Option String) :=
  x.1.map fun y => (y.1, x.2.world.events, y.2.status.failure)

theorem wait_congr (h : c.service.AgreeButOnReads other) (project zone operation : String) :
    { c with service := other }.wait project zone operation = c.wait project zone operation := by
  have hlook := h (.getOperation project zone operation) nofun
  have hcheck : other.check project zone operation = c.service.check project zone operation := by
    unfold Service.check
    rw [hlook]
  unfold wait Service.wait
  rw [hcheck]

/-- An attempt makes no read of the instance. -/
theorem attempt_congr (h : c.service.AgreeButOnReads other) :
    { c with service := other }.attempt s = c.attempt s := by
  have hcall :
      ∀ data, { c with service := other }.call (s.insertion data) = c.call (s.insertion data) := by
    intro data
    have hinsert := h (s.insertion data) nofun
    change World.onCompute (other _) = World.onCompute (c.service _)
    rw [hinsert]
  have huser : { c with service := other }.userData s = c.userData s := rfl
  unfold attempt insertAndWait
  simp only [huser, hcall, wait_congr h]

/-- What is reported after an attempt, whatever is read then. -/
theorem reported_create (hs : c.service.Answers) {result : Except ActuatorError Unit}
    {v : Timeline (World σ τ)} (ha : exec (c.attempt s) t = (.ok result, v)) :
    reported (exec (c.create s) t) =
      .ok (result, v.world.events ++ s.warnings result ++ s.notices result,
        s.failureAfter result) := by
  have hrest := create_ends_of_attempt hs ha
  obtain ⟨x, u, he, r, _, rfl, hevents, _⟩ := hrest.returns
  rw [he]
  unfold reported
  rw [hevents]
  change Except.ok (result, _, (s.concluded result r).status.failure) = _
  rw [Scope.failure_concluded]

theorem reported_create_of_halt {e : Halt} {v : Timeline (World σ τ)}
    (ha : exec (c.attempt s) t = (.error e, v)) : reported (exec (c.create s) t) = .error e := by
  obtain ⟨v', hv, _⟩ := Scope.exec_holding_of_error (s := s) ha
  rw [create_eq, exec_bind_of_error hv]
  rfl

/-- Runs that differ in the reads at most report the same. -/
theorem reported_congr (hs : c.service.Answers) (ho : other.Answers)
    (h : c.service.AgreeButOnReads other) :
    reported (exec ({ c with service := other }.create s) t) = reported (exec (c.create s) t) := by
  rcases hx : exec (c.attempt s) t with ⟨e | result, v⟩
  · have hx' : exec ({ c with service := other }.attempt s) t = (.error e, v) := by
      rw [attempt_congr h, hx]
    rw [reported_create_of_halt hx, reported_create_of_halt hx']
  · have hx' : exec ({ c with service := other }.attempt s) t = (.ok result, v) := by
      rw [attempt_congr h, hx]
    rw [reported_create hs hx, reported_create (c := { c with service := other }) ho hx']

end Collaborators

namespace Scope

variable {s : Scope}

theorem observed_read_of_interface {i : Instance} {n : NetworkInterface}
    {ns : List NetworkInterface} (hi : i.interfaces = n :: ns) :
    (s.read (.ok i)).status.observed =
      (⟨.internal, n.address⟩ :: n.accessConfigs.map fun a => ⟨.external, a.address⟩,
        some s.providerId, ⟨some i.name, some i.status⟩) := by
  rw [observed_read]
  simp only [seen?, Instance.observation?, hi, Option.elim_some]

theorem observed_read_of_none {r : Except ComputeError Instance}
    (hr : ∀ i, r = .ok i → i.interfaces = []) : (s.read r).status.observed = s.status.observed := by
  rw [observed_read]
  cases r with
  | error e => rfl
  | ok i =>
    have hi := hr i rfl
    simp only [seen?, Instance.observation?, hi, Option.elim_none]

end Scope

namespace Mock

/-- The mock, but that no instance can be read. -/
def unreadable (e : ComputeError) : Service Mock
  | .getInstance _ _ _ => return .error e
  | q => service q

theorem unreadable_answers (e : ComputeError) : (unreadable e).Answers := by
  intro q t
  cases q with
  | getInstance project zone name => exact ends_pure (Nat.le_refl _)
  | _ => exact service_answers _ t

theorem agree_unreadable (e : ComputeError) : service.AgreeButOnReads (unreadable e) := by
  intro q hq
  cases q with
  | getInstance project zone name => exact absurd rfl hq
  | _ => rfl

end Mock

namespace Collaborators

variable {σ τ : Type} {c : Collaborators σ τ}

/-- The report does not depend on the read, and all that is observed is from the read, or all as it
was. -/
theorem create_separation (hs : c.service.Answers) (hk : c.secrets.Answers) {other : Service σ}
    (ho : other.Answers) (h : c.service.AgreeButOnReads other) (s : Scope)
    (t : Timeline (World (List Exchange × σ) τ)) :
    reported (exec ({ c with service := other }.traced.create s) t) =
        reported (exec (c.traced.create s) t) ∧
      Ends (fun e u => c.polling.Stops e u.now) (c.traced.create s) t fun x u => ∃ es r,
        u.world.compute.1 = t.world.compute.1 ++ es ++ [⟨s.reading, r⟩] ∧
          (∀ i n ns, r = .ok i → i.interfaces = n :: ns →
            x.2.status.observed =
              (⟨.internal, n.address⟩ :: n.accessConfigs.map fun a => ⟨.external, a.address⟩,
                some s.providerId, ⟨some i.name, some i.status⟩)) ∧
          ((∀ i, r = .ok i → i.interfaces = []) → x.2.status.observed = s.status.observed) := by
  refine ⟨reported_congr (c := c.traced) hs.traced ho.traced h.traced, ?_⟩
  refine (create_traced_ends hs hk).mono (fun _ _ hstop => hstop.1) ?_
  rintro x u ⟨es, r, _, hu, hx, _⟩
  refine ⟨es, r, hu, ?_, ?_⟩
  · intro i n ns hr hi
    rw [hx, Scope.observed_concluded, hr]
    exact Scope.observed_read_of_interface hi
  · intro hr
    rw [hx, Scope.observed_concluded]
    exact Scope.observed_read_of_none hr

theorem create_separation_inMemory :
    Mock.service.Answers ∧ (SecretStore.memory ∅ : SecretStore MachineTable).Answers ∧
      (Mock.unreadable (.notFound "")).Answers ∧
      Mock.service.AgreeButOnReads (Mock.unreadable (.notFound "")) ∧
      reported
          (exec ({ inMemory default none with
              service := Mock.unreadable (.notFound "") }.traced.create .small)
            (World.start ([], .new) .empty)) =
        reported
          (exec ((inMemory default none).traced.create .small)
            (World.start ([], .new) .empty)) := by
  have hk : (SecretStore.memory ∅ : SecretStore MachineTable).Answers :=
    SecretStore.memory_answers ∅
  have ho := Mock.unreadable_answers (.notFound "")
  have ha := Mock.agree_unreadable (.notFound "")
  exact ⟨Mock.service_answers, hk, ho, ha,
    (create_separation (c := inMemory default none) Mock.service_answers hk ho ha .small
      (World.start ([], .new) .empty)).1⟩

end Collaborators
end Provision
