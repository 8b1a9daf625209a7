import Provision.Actuator.Reconcile
import Provision.Proofs.World

/-!
The attempt at making an instance: what it asks of the service, and how it comes out.
-/
namespace Provision

open Timed

namespace Scope

/-- The request for the instance, with encoded boot data. -/
abbrev insertion (s : Scope) (data : String) : Call :=
  .insertInstance s.project s.zone (s.machine.request s.project data)

/-- How an attempt at making the instance comes out, and the exchanges on the way, when the boot
data resolve as `boot` says. -/
inductive Attempt (s : Scope) (boot : Except Halt (Except MachineError String)) :
    Except ActuatorError Unit → List Exchange → Prop
  | invalid {e : ValidationError} (he : s.machine.validationError? = some e) :
      Attempt s boot (.error (.machine (.invalidSpec e))) []
  | unresolved {e : MachineError} (hv : s.machine.validationError? = none)
      (hb : boot = .ok (.error e)) :
      Attempt s boot (.error (.machine e)) []
  | refused {data : String} (hv : s.machine.validationError? = none) (hb : boot = .ok (.ok data))
      (e : ComputeError) : Attempt s boot (.error (s.insertFailed e)) [⟨s.insertion data, .error e⟩]
  | waited {data : String} (hv : s.machine.validationError? = none) (hb : boot = .ok (.ok data))
      (o : Operation) (rs : List (Except ComputeError Operation))
      {y : Except (PollError Operation ComputeError) (Operation × Nat)}
      (hy : PollOutcome (rs.map Service.progress) y) :
      Attempt s boot ((Service.waited s.project s.zone o.name y).map fun _ => ())
        (⟨s.insertion data, .ok o⟩ :: Service.polls s.project s.zone o.name rs)

/-- The exchanges of an attempt that is cut short, which it can only be while it waits, and before a
look at the operation decides. -/
inductive CutShort (s : Scope) (boot : Except Halt (Except MachineError String)) (e : Halt) :
    List Exchange → Prop
  | waiting {data : String} (hv : s.machine.validationError? = none) (hb : boot = .ok (.ok data))
      (o : Operation) (rs : List (Except ComputeError Operation)) (hrs : Service.Undecided e rs) :
      CutShort s boot e (⟨s.insertion data, .ok o⟩ :: Service.polls s.project s.zone o.name rs)

end Scope

namespace Collaborators

variable {σ τ : Type} {c : Collaborators σ τ} {s : Scope} {t : Timeline (World σ τ)}

/-- Where an attempt from `t` may halt: polling cannot go on, and no event was recorded. -/
def Interrupted (c : Collaborators σ τ) (s : Scope) (t : Timeline (World σ τ)) (e : Halt)
    (u : Timeline (World σ τ)) : Prop :=
  c.polling.Stops e u.now ∧ u.world.events = t.world.events ∧
    ∃ es, s.CutShort (exec (c.userData s) t).1 e es ∧
      c.service.Steps t.world.compute es u.world.compute

/-- Where an attempt is interrupted does not depend on the log. -/
theorem Interrupted.of_eq {e : Halt} {u v : Timeline (World σ τ)} (h : c.Interrupted s t e u)
    (hn : v.now = u.now) (hw : v.world = u.world) : c.Interrupted s t e v := by
  unfold Interrupted
  rw [hn, hw]
  exact h

theorem userData_ends (hk : c.secrets.Answers) :
    Ends never (c.userData s) t fun boot u => (∀ e, boot = .error e → e.reason = .createError) ∧
      u.world.compute = t.world.compute ∧ u.world.events = t.world.events ∧
        c.secrets.LooksUp t.world.storage u.world.storage := by
  unfold userData
  split
  · exact ends_pure ⟨nofun, rfl, rfl, .none _⟩
  · refine ends_bind (secret_ends hk _ _) fun r u hu => ?_
    split
    · refine ends_pure ⟨?_, hu⟩
      rintro _ ⟨⟩
      rfl
    · split
      · refine ends_pure ⟨?_, hu⟩
        rintro _ ⟨⟩
        rfl
      · exact ends_pure ⟨nofun, hu⟩

theorem userData_ends_of_resolves (h : c.secrets.Resolves s.machine t.world.storage) :
    Ends never (c.userData s) t fun boot _ => ∃ data, boot = .ok data := by
  unfold userData
  split
  next => exact ends_pure ⟨"", rfl⟩
  next name hname =>
    refine ends_bind (World.ends_onStorage (h name hname ⟨t.now, t.log, t.world.storage⟩ rfl)) ?_
    rintro _ u ⟨_, ⟨secret, bytes, rfl, hb⟩, _⟩
    simp only [hb]
    exact ends_pure ⟨_, rfl⟩

theorem insertAndWait_ends (hs : c.service.Answers) (hk : c.secrets.Answers)
    (hv : s.machine.validationError? = none) :
    Ends (c.Interrupted s t) (c.insertAndWait s) t fun result u => ∃ es,
      s.Attempt (exec (c.userData s) t).1 result es ∧
        c.service.Steps t.world.compute es u.world.compute ∧ u.world.events = t.world.events ∧
        c.secrets.LooksUp t.world.storage u.world.storage := by
  obtain ⟨boot, v, he, _, hc, hevents, hl⟩ := (userData_ends (s := s) (t := t) hk).returns
  unfold Interrupted insertAndWait
  rw [he]
  refine ends_bind_of_exec he ?_
  cases boot with
  | error e =>
    refine ends_pure ⟨[], .unresolved hv rfl, ?_, hevents, hl⟩
    rw [hc]
    exact .nil _
  | ok data =>
    refine ends_bind ends_log fun _ w ⟨_, hw⟩ => ?_
    refine ends_bind (call_ends hs (s.insertion data)).of_never fun r u ⟨hr, hu⟩ => ?_
    rw [hw, hc] at hr
    rw [hw] at hu
    cases r with
    | error e =>
      refine ends_pure ⟨_, .refused hv rfl e, hr.steps, hu.2.trans hevents, ?_⟩
      rwa [hu.1]
    | ok o =>
      refine ends_bind ((wait_ends hs s.project s.zone o.name).mono ?_ fun _ _ hq => hq) ?_
      · rintro e z ⟨hstop, ⟨rs, hrs, hp⟩, hz⟩
        exact ⟨hstop, (hu.trans hz).2.trans hevents, _, .waiting hv rfl o rs hrs,
          hr.steps.append hp⟩
      · rintro x u' ⟨rs, y, hy, hx, hp, hu'⟩
        have ha : s.Attempt (.ok (.ok data)) (x.map fun _ => ())
            (⟨s.insertion data, .ok o⟩ :: Service.polls s.project s.zone o.name rs) := by
          rw [hx]
          exact .waited hv rfl o rs hy
        have hp' := hr.steps.append hp
        have hu'' := hu.trans hu'
        cases x with
        | error e =>
          refine ends_pure ⟨_, ha, hp', hu''.2.trans hevents, ?_⟩
          rwa [hu''.1]
        | ok o' =>
          refine ends_bind ends_log fun _ z ⟨_, hz⟩ => ends_pure ⟨_, ha, ?_, ?_, ?_⟩
          · rwa [hz]
          · rw [hz]
            exact hu''.2.trans hevents
          · rwa [hz, hu''.1]

theorem attempt_ends (hs : c.service.Answers) (hk : c.secrets.Answers) :
    Ends (c.Interrupted s t) (c.attempt s) t fun result u => ∃ es,
      s.Attempt (exec (c.userData s) t).1 result es ∧
        c.service.Steps t.world.compute es u.world.compute ∧ u.world.events = t.world.events ∧
        c.secrets.LooksUp t.world.storage u.world.storage := by
  unfold attempt
  split
  next e he => exact ends_pure ⟨[], .invalid he, .nil _, rfl, .none _⟩
  next hv => exact insertAndWait_ends hs hk hv

end Collaborators
end Provision
