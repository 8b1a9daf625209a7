import Provision.Proofs.Creation.Attempt

/-!
What follows an attempt at making an instance: the read of the instance, and what it and the result
of the attempt make of the status and of the events.
-/
namespace Provision

open Timed

namespace MachineStatus

/-- What was seen of the instance. -/
def observed (st : MachineStatus) : List NodeAddress × Option String × ProviderStatus :=
  (st.addresses, st.providerId, st.provider)

/-- What failed. -/
def failure (st : MachineStatus) : Option ErrorReason × Option String :=
  (st.errorReason, st.errorMessage)

end MachineStatus

namespace Scope

/-- The request to read the instance. -/
abbrev reading (s : Scope) : Call := .getInstance s.project s.zone s.name

/-- What a read of the instance shows of it. -/
def seen? : Except ComputeError Instance → Option Observation
  | .ok i => i.observation?
  | .error _ => none

/-- The scope after a read, which changes nothing when it shows nothing. -/
def read (s : Scope) (r : Except ComputeError Instance) : Scope := (seen? r).elim s s.observe

/-- What refreshing the status answers after a read. -/
def readResult (s : Scope) : Except ComputeError Instance → Except ActuatorError Unit
  | .error e => .error (s.callFailed "get" e)
  | .ok i => if i.observation?.isSome then .ok () else .error i.withoutInterface

/-- The scope once a failed attempt was told of. -/
def surfaced (s : Scope) : Except ActuatorError Unit → Scope
  | .error (.machine e) => s.recordError e
  | _ => s

/-- The scope without its errors once an attempt succeeded. -/
def settled (s : Scope) : Except ActuatorError Unit → Scope
  | .ok () => s.clearError
  | .error _ => s

/-- The scope when all is done. -/
def concluded (s : Scope) (result : Except ActuatorError Unit) (r : Except ComputeError Instance) :
    Scope := ((s.surfaced result).read r).settled result

/-- The events that tell of a failed attempt. -/
def warnings (s : Scope) : Except ActuatorError Unit → List Event
  | .error (.machine e) => [.about s.machine .warning Event.failedCreateReason e.message]
  | _ => []

/-- The events that tell of an attempt that succeeded. -/
def notices (s : Scope) : Except ActuatorError Unit → List Event
  | .ok () => [.about s.machine .normal Event.createdReason ("Created Machine " ++ s.name)]
  | .error _ => []

section Observation

variable {s : Scope} {i : Instance} {o : Observation}

theorem read_of_seen (ho : i.observation? = some o) : s.read (.ok i) = s.observe o := by
  simp only [read, seen?, ho, Option.elim_some]

theorem read_of_unseen (ho : i.observation? = none) : s.read (.ok i) = s := by
  simp only [read, seen?, ho, Option.elim_none]

theorem readResult_of_seen (ho : i.observation? = some o) : s.readResult (.ok i) = .ok () := by
  simp only [readResult, ho, Option.isSome_some, if_true]

theorem readResult_of_unseen (ho : i.observation? = none) :
    s.readResult (.ok i) = .error i.withoutInterface := by
  simp only [readResult, ho, Option.isSome_none, Bool.false_eq_true, if_false]

end Observation

/-- What an attempt leaves of failures in the status. -/
def failureAfter (s : Scope) : Except ActuatorError Unit → Option ErrorReason × Option String
  | .ok () => (none, none)
  | .error (.machine e) => (some e.reason, some e.message)
  | .error _ => s.status.failure

theorem failure_read (s : Scope) (r : Except ComputeError Instance) :
    (s.read r).status.failure = s.status.failure := by
  unfold read
  cases seen? r <;> rfl

theorem observed_read (s : Scope) (r : Except ComputeError Instance) :
    (s.read r).status.observed = (seen? r).elim s.status.observed fun o =>
      (o.addresses, some s.providerId, ⟨some o.instanceId, some o.instanceState⟩) := by
  unfold read
  cases seen? r <;> rfl

/-- What failed depends on the attempt alone. -/
theorem failure_concluded (s : Scope) (result : Except ActuatorError Unit)
    (r : Except ComputeError Instance) :
    (s.concluded result r).status.failure = s.failureAfter result := by
  match result with
  | .ok () => rfl
  | .error e => cases e <;> exact failure_read _ r

/-- What was seen depends on the read alone. -/
theorem observed_concluded (s : Scope) (result : Except ActuatorError Unit)
    (r : Except ComputeError Instance) :
    (s.concluded result r).status.observed = (s.read r).status.observed := by
  match result with
  | .ok () => rfl
  | .error e =>
    change ((s.surfaced (.error e)).read r).status.observed = _
    rw [observed_read, observed_read]
    cases e <;> rfl

theorem notices_read (s : Scope) (r : Except ComputeError Instance)
    (result : Except ActuatorError Unit) :
    (s.read r).notices result = s.notices result := by
  unfold read
  cases seen? r <;> rfl

end Scope

namespace Collaborators

variable {σ τ : Type} {c : Collaborators σ τ} {s : Scope} {t : Timeline (World σ τ)}

/-- A refresh comes to what the read makes of the scope. -/
theorem refresh_ends_of_call {stop : Halt → Timeline (World σ τ) → Prop}
    {P : Reply s.reading → Timeline (World σ τ) → Prop} (h : Ends stop (c.call s.reading) t P) :
    Ends stop (c.refresh s) t fun x u =>
      ∃ r v, P r v ∧ u.world = v.world ∧ x = (s.readResult r, s.read r) := by
  unfold refresh
  refine ends_bind h fun r u hr => ?_
  cases r with
  | error e => exact ends_pure ⟨.error e, u, hr, rfl, rfl⟩
  | ok i =>
    cases ho : i.observation? with
    | none =>
      simp only [ho]
      refine ends_pure ⟨.ok i, u, hr, rfl, ?_⟩
      rw [Scope.readResult_of_unseen ho, Scope.read_of_unseen ho]
    | some o =>
      simp only [ho]
      refine ends_bind ends_log fun _ v ⟨_, hv⟩ => ends_pure ⟨.ok i, u, hr, hv, ?_⟩
      rw [Scope.readResult_of_seen ho, Scope.read_of_seen ho]

theorem refresh_ends (hs : c.service.Answers) :
    Ends never (c.refresh s) t fun x u =>
      ∃ r, c.service.Step s.reading t.world.compute r u.world.compute ∧
        t.world.SameRecords u.world ∧
        x = (s.readResult r, s.read r) := by
  refine (refresh_ends_of_call (call_ends hs s.reading)).weaken ?_
  rintro x u ⟨r, v, ⟨hr, hv⟩, hu, hx⟩
  rw [hu]
  exact ⟨r, hr, hv, hx⟩

theorem surface_ends {stop : Halt → Timeline (World σ τ) → Prop} (e : MachineError) :
    Ends stop (c.surface s e) t fun s' u => s' = s.recordError e ∧
      u.world =
        { t.world with
          events :=
            t.world.events ++ [.about s.machine .warning Event.failedCreateReason e.message] } := by
  unfold surface
  refine ends_bind ends_log fun _ u ⟨_, hu⟩ => ?_
  refine ends_bind (World.record_ends _ _) fun _ v hv => ends_pure ⟨rfl, ?_⟩
  rw [hv, hu]

/-- Tells of an attempt that failed by the machine's own fault. -/
def tell (c : Collaborators σ τ) (s : Scope) : Except ActuatorError Unit → Timed (World σ τ) Scope
  | .error (.machine e) => c.surface s e
  | _ => pure s

/-- Tells of an attempt that succeeded. -/
def finish (c : Collaborators σ τ) (result : Except ActuatorError Unit) (s : Scope) :
    Timed (World σ τ) (Except ActuatorError Unit × Scope) := do
  match result with
  | .error e => return (.error e, s)
  | .ok () =>
    World.record c.recorder
      (.about s.machine .normal Event.createdReason ("Created Machine " ++ s.name))
    return (.ok (), s.clearError)

/-- What is done once a failed attempt was told of. -/
def conclude (c : Collaborators σ τ) (result : Except ActuatorError Unit) (s : Scope) :
    Timed (World σ τ) (Except ActuatorError Unit × Scope) := do
  let (refreshed, s) ← s.holding (c.refresh s)
  if let .error e := refreshed then
    Timed.log .debug .reconciliation "Failed to refresh machine status after create"
      [("machine", s.name), ("error", e.message .located)]
  c.finish result s

theorem create_eq (c : Collaborators σ τ) (s : Scope) :
    c.create s = s.holding (c.attempt s) >>= fun result =>
      c.tell s result >>= c.conclude result := by
  unfold create
  congr 1
  funext result
  match result with
  | .ok () => rfl
  | .error e => cases e <;> rfl

theorem tell_ends {stop : Halt → Timeline (World σ τ) → Prop} (result : Except ActuatorError Unit) :
    Ends stop (c.tell s result) t fun s' u => s' = s.surfaced result ∧
      u.world = { t.world with events := t.world.events ++ s.warnings result } := by
  have hnil : t.world = { t.world with events := t.world.events ++ [] } := by rw [List.append_nil]
  match result with
  | .ok () => exact ends_pure ⟨rfl, hnil⟩
  | .error e =>
    cases e with
    | machine e => exact surface_ends e
    | _ => exact ends_pure ⟨rfl, hnil⟩

theorem finish_ends {stop : Halt → Timeline (World σ τ) → Prop}
    (result : Except ActuatorError Unit) :
    Ends stop (c.finish result s) t fun x u => x = (result, s.settled result) ∧
      u.world = { t.world with events := t.world.events ++ s.notices result } := by
  match result with
  | .error e =>
    refine ends_pure ⟨rfl, ?_⟩
    change t.world = { t.world with events := t.world.events ++ [] }
    rw [List.append_nil]
  | .ok () => exact ends_bind (World.record_ends _ _) fun _ u hu => ends_pure ⟨rfl, hu⟩

/-- What follows an attempt comes to what the read and the result make of the scope. -/
theorem conclude_ends_of_call {stop stop' : Halt → Timeline (World σ τ) → Prop}
    {P : Reply s.reading → Timeline (World σ τ) → Prop} (h : Ends stop (c.call s.reading) t P)
    (hs : ∀ e u v, stop e u → v.now = u.now → v.world = u.world → stop' e v)
    (result : Except ActuatorError Unit) :
    Ends stop' (c.conclude result s) t fun x u => ∃ r v, P r v ∧
      x = (result, (s.read r).settled result) ∧
      u.world = { v.world with events := v.world.events ++ s.notices result } := by
  unfold conclude
  refine ends_bind (Scope.holding_ends (refresh_ends_of_call h) hs) ?_
  rintro _ u ⟨r, v, hr, hu, rfl⟩
  have hfinish : ∀ w : Timeline (World σ τ), w.world = u.world →
      Ends stop' (c.finish result (s.read r)) w fun x z => ∃ r v, P r v ∧
        x = (result, (s.read r).settled result) ∧
        z.world = { v.world with events := v.world.events ++ s.notices result } := by
    intro w hw
    refine (finish_ends result).weaken fun x z ⟨hx, hz⟩ => ⟨r, v, hr, hx, ?_⟩
    rw [hz, hw, hu, Scope.notices_read]
  cases s.readResult r with
  | ok _ => exact hfinish u rfl
  | error e => exact ends_bind ends_log fun _ w hw => hfinish w hw.2

theorem conclude_ends (hs : c.service.Answers) (result : Except ActuatorError Unit) :
    Ends never (c.conclude result s) t fun x u => ∃ r,
      c.service.Step s.reading t.world.compute r u.world.compute ∧
        x = (result, (s.read r).settled result) ∧
        u.world.events = t.world.events ++ s.notices result ∧
          u.world.storage = t.world.storage := by
  refine (conclude_ends_of_call (call_ends hs s.reading) (fun _ _ _ hstop => hstop.elim)
    result).weaken ?_
  rintro x u ⟨r, v, ⟨hr, hst, he⟩, hx, hu⟩
  rw [hu]
  exact ⟨r, hr, hx, congrArg (· ++ s.notices result) he, hst⟩

/-- What follows an attempt depends on its result and on the read alone. -/
theorem create_ends_of_attempt (hs : c.service.Answers) {result : Except ActuatorError Unit}
    {v : Timeline (World σ τ)} (ha : exec (c.attempt s) t = (.ok result, v)) :
    Ends never (c.create s) t fun x u => ∃ r,
      c.service.Step s.reading v.world.compute r u.world.compute ∧
        x = (result, s.concluded result r) ∧
        u.world.events = v.world.events ++ s.warnings result ++ s.notices result ∧
        u.world.storage = v.world.storage := by
  rw [create_eq]
  refine ends_bind_of_exec (Scope.exec_holding_of_ok ha) (ends_bind (tell_ends result) ?_)
  rintro _ u ⟨rfl, hu⟩
  refine (conclude_ends hs result).weaken fun x w ⟨r, hr, hx, he, hst⟩ => ⟨r, ?_, hx, ?_, ?_⟩
  · rw [hu] at hr
    match result with
    | .ok () => exact hr
    | .error e => cases e <;> exact hr
  · rw [he, hu]
    match result with
    | .ok () => rfl
    | .error e => cases e <;> rfl
  · rw [hst, hu]

/-- All that making an instance does. -/
theorem create_ends (hs : c.service.Answers) (hk : c.secrets.Answers) :
    Ends (c.Interrupted s t) (c.create s) t fun x u => ∃ es r,
      s.Attempt (exec (c.userData s) t).1 x.1 es ∧
        c.service.Steps t.world.compute (es ++ [⟨s.reading, r⟩]) u.world.compute ∧
        x.2 = s.concluded x.1 r ∧
        u.world.events = t.world.events ++ s.warnings x.1 ++ s.notices x.1 ∧
        c.secrets.LooksUp t.world.storage u.world.storage := by
  cases attempt_ends (s := s) (t := t) hs hk with
  | answers ha hattempt =>
    obtain ⟨es, hes, hsteps, he, hl⟩ := hattempt
    have hrest := create_ends_of_attempt hs ha
    refine hrest.of_never.weaken ?_
    rintro _ u ⟨r, hr, rfl, he', hst⟩
    refine ⟨es, r, hes, hsteps.append hr.steps, rfl, ?_, ?_⟩
    · rw [he', he]
    · rwa [hst]
  | halts ha hstop =>
    have hheld : Ends (c.Interrupted s t) (s.holding (c.attempt s)) t fun _ _ => False :=
      Scope.holding_ends (.halts ha hstop) fun _ _ _ h hn hw => h.of_eq hn hw
    rw [create_eq]
    exact ends_bind hheld fun _ _ hf => hf.elim

/-- The same, with the exchanges as a traced service keeps them. -/
theorem create_traced_ends {t : Timeline (World (List Exchange × σ) τ)} (hs : c.service.Answers)
    (hk : c.secrets.Answers) :
    Ends (fun e u => c.polling.Stops e u.now ∧ u.world.events = t.world.events ∧ ∃ es,
        u.world.compute.1 = t.world.compute.1 ++ es ∧
          s.CutShort (exec (c.traced.userData s) t).1 e es)
      (c.traced.create s) t fun x u => ∃ es r,
      s.Attempt (exec (c.traced.userData s) t).1 x.1 es ∧
        u.world.compute.1 = t.world.compute.1 ++ es ++ [⟨s.reading, r⟩] ∧
        x.2 = s.concluded x.1 r ∧
        u.world.events = t.world.events ++ s.warnings x.1 ++ s.notices x.1 := by
  have hcreate := create_ends (c := c.traced) (s := s) (t := t) hs.traced hk
  refine hcreate.mono ?_ ?_
  · rintro e u ⟨hstop, he, es, hes, hsteps⟩
    exact ⟨hstop, he, es, hsteps.of_traced.1, hes⟩
  · rintro x u ⟨es, r, hes, hsteps, hx, he, _⟩
    refine ⟨es, r, hes, ?_, hx, he⟩
    rw [hsteps.of_traced.1, List.append_assoc]

end Collaborators
end Provision
