import Provision.Proofs.Persistence

/-!
Failures that are the machine's own fault, and where they show. Once the machine has a project, such
a failure of making its instance is told of in an event and in the status; a machine without a
project fails unseen.
-/
namespace Provision

open Timed

/-- A failure of the machine's own shows: one event tells of it, and the status does, which the
store is given unless the machine had it before. -/
structure Machine.Surfaces (m : Machine) (e : MachineError) (events : List Event)
    (written : List Write) (st : MachineStatus) : Prop where
  event : events = [.about m .warning Event.failedCreateReason e.message]
  failure : st.failure = (some e.reason, some e.message)
  stored : st = m.status ∧ written = [] ∨ st ≠ m.status ∧
    ∃ answer, written = [(m.withStatus st, answer)]

/-- A machine that is blamed at the end was blamed by the work on it, whatever came of the
writing. -/
theorem Action.Settles.of_machine {a : Action} (ha : a.persists = true) {m : Machine}
    {r : Except ActuatorError a.Answer} {st : MachineStatus} {written : List Write}
    {e : MachineError} (h : a.Settles m r st written (.error (.machine e))) :
    r = .error (.machine e) ∧
      (st = m.status ∧ written = [] ∨ st ≠ m.status ∧
        ∃ answer, written = [(m.withStatus st, answer)]) := by
  cases h with
  | discarded hd =>
    rw [ha] at hd
    cases hd
  | unchanged _ hst => exact ⟨rfl, .inl ⟨hst, rfl⟩⟩
  | stored _ hst => exact ⟨rfl, .inr ⟨hst, _, rfl⟩⟩
  | failed _ hst hr w => exact ⟨hr, .inr ⟨hst, .error w, rfl⟩⟩

namespace Collaborators

variable {σ τ : Type} {c : Collaborators σ τ} {m : Machine} {s : Scope}

/-- Work that blames the machine it was taken up for has told of that. -/
theorem journaled_create_surfaces (hs : c.service.Answers) (hk : c.secrets.Answers)
    (hm : c.machines.Answers fun _ => True) (hacq : Scope.acquire c.defaultProject m = .ok s)
    (t : Timeline (World σ (List Write × τ))) :
    Ends (fun e u => c.polling.Stops e u.now) (c.journaled.perform .create m) t
      fun y u => ∃ events written,
      u.world.events = t.world.events ++ events ∧ u.world.storage.1 = t.world.storage.1 ++ written ∧
        ∀ e, y.result = .error (.machine e) → m.Surfaces e events written y.machine.status := by
  refine (journaled_perform_ends hs hk hm hacq t).mono (fun _ _ hstop => hstop.1) ?_
  rintro y u ⟨r, st, v, written, hrun, hmachine, hsettles, hwritten, _, hevents, _⟩
  obtain ⟨_, r', _, _, hscope, htold, _⟩ :=
    (create_ends (c := c.journaled) hs hk.beside).of_run hrun
  refine ⟨s.warnings r ++ s.notices r, written, ?_, hwritten, fun e he => ?_⟩
  · rw [hevents, htold, List.append_assoc]
    rfl
  · rw [he] at hsettles
    obtain ⟨rfl, hstored⟩ := hsettles.of_machine rfl
    obtain rfl := Scope.machine_of_acquire hacq
    have hfailure := Scope.failure_concluded s (.error (.machine e)) r'
    rw [← hscope] at hfailure
    rw [hmachine]
    exact ⟨rfl, hfailure, hstored⟩

/-- Making an instance that fails by the machine's own fault shows exactly when the machine has a
project. Without one it fails at once, and leaves no trace but the answer. -/
theorem create_surfaces_iff (hs : c.service.Answers) (hk : c.secrets.Answers)
    (hm : c.machines.Answers fun _ => True) (m : Machine)
    (t : Timeline (World σ (List Write × τ))) :
    Ends (fun e u => c.polling.Stops e u.now) (c.journaled.perform .create m) t
      fun y u => ∃ events written,
      u.world.events = t.world.events ++ events ∧ u.world.storage.1 = t.world.storage.1 ++ written ∧
        (∀ e, y.result = .error (.machine e) →
          (m.Surfaces e events written y.machine.status ↔
            Scope.projectOf c.defaultProject m ≠ "")) ∧
        (Scope.projectOf c.defaultProject m = "" →
          y = ⟨.error (.machine (Scope.noProject m)), m⟩ ∧ events = [] ∧ written = []) := by
  by_cases hp : Scope.projectOf c.defaultProject m = ""
  · have hacq : Scope.acquire c.defaultProject m = .error (Scope.noProject m) := if_pos hp
    refine .answers (exec_perform_of_error (c := c.journaled) hacq t) ?_
    refine ⟨[], [], (List.append_nil _).symm, (List.append_nil _).symm, fun e _ => ?_,
      fun _ => ⟨rfl, rfl, rfl⟩⟩
    refine ⟨fun h => ?_, fun h => absurd hp h⟩
    cases h.event
  · have hacq := Scope.acquire_eq_ok.mpr ⟨hp, rfl⟩
    refine (journaled_create_surfaces hs hk hm hacq t).weaken ?_
    rintro y u ⟨events, written, hevents, hwritten, hsurfaces⟩
    exact ⟨events, written, hevents, hwritten, fun e he => ⟨fun _ => hp, fun _ => hsurfaces e he⟩,
      fun h => absurd h hp⟩

end Collaborators

/-- A machine that is not valid, as it is to have no disk. -/
def Machine.diskless : Machine := { small with spec := { small.spec with disks := [] } }

namespace Collaborators

theorem create_surfaces_iff_diskless :
    Mock.service.Answers ∧ (SecretStore.memory ∅ : SecretStore MachineTable).Answers ∧
      MachineStore.memory.Answers (fun _ => True) ∧
      Ends (fun e u => (default : PollConfig).Stops e u.now)
        ((inMemory default (some "lab")).journaled.perform .create .diskless)
        (World.start .new ([], .empty))
        fun y u => ∃ events written, u.world.events = events ∧ u.world.storage.1 = written ∧
          (∀ e, y.result = .error (.machine e) →
            (Machine.diskless.Surfaces e events written y.machine.status ↔
              Scope.projectOf (some "lab") .diskless ≠ "")) ∧
          (Scope.projectOf (some "lab") .diskless = "" →
            y = ⟨.error (.machine (Scope.noProject .diskless)), .diskless⟩ ∧ events = [] ∧
              written = []) := by
  have hk : (SecretStore.memory ∅ : SecretStore MachineTable).Answers :=
    SecretStore.memory_answers ∅
  have hm : MachineStore.memory.Answers fun _ => True := MachineStore.memory_answers
  exact ⟨Mock.service_answers, hk, hm,
    create_surfaces_iff (c := inMemory default (some "lab")) Mock.service_answers hk hm .diskless
      (World.start .new ([], .empty))⟩

/-- The small machine without a project is blamed for that, but no event tells of it and no status
is written. -/
theorem create_unseen_without_project :
    Ends never ((inMemory default none).journaled.perform .create .small)
      (World.start .new ([], .empty))
      fun y u => y.result = .error (.machine (Scope.noProject .small)) ∧ u.world.events = [] ∧
        u.world.storage.1 = [] ∧ y.machine.status.failure = (none, none) ∧
        ¬Machine.small.Surfaces (Scope.noProject .small) u.world.events u.world.storage.1
          y.machine.status := by
  have hacq : Scope.acquire none .small = .error (Scope.noProject .small) := rfl
  refine .answers (exec_perform_of_error (c := (inMemory default none).journaled) hacq _) ?_
  refine ⟨rfl, rfl, rfl, rfl, fun h => ?_⟩
  cases h.event

end Collaborators
end Provision
