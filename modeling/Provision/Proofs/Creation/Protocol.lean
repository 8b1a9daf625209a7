import Provision.Proofs.Punctual

/-!
The order of the calls in which an instance is made. Whatever the service replies, the calls follow
one protocol, and the instance is read once, at the end.
-/
namespace Provision

open Timed

namespace Scope

/-- The exchanges in which an instance is made, when the boot data resolve as `boot` says: the last
is a read, and an insertion comes before it only for a valid machine with its boot data. -/
inductive Protocol (s : Scope) (boot : Except Halt (Except MachineError String)) :
    List Exchange → Prop
  | unasked (h : s.machine.validationError? ≠ none ∨ ∃ e, boot = .ok (.error e))
      (r : Reply s.reading) :
      Protocol s boot [⟨s.reading, r⟩]
  | refused {data : String} (hv : s.machine.validationError? = none) (hb : boot = .ok (.ok data))
      (e : ComputeError) (r : Reply s.reading) :
      Protocol s boot [⟨s.insertion data, .error e⟩, ⟨s.reading, r⟩]
  | waited {data : String} (hv : s.machine.validationError? = none) (hb : boot = .ok (.ok data))
      (o : Operation) (rs : List (Except ComputeError Operation)) (hrs : rs ≠ [])
      (r : Reply s.reading) :
      Protocol s boot
        (⟨s.insertion data, .ok o⟩ :: Service.polls s.project s.zone o.name rs ++ [⟨s.reading, r⟩])

variable {s : Scope} {boot : Except Halt (Except MachineError String)} {es : List Exchange}

theorem Attempt.protocol {result : Except ActuatorError Unit} (h : s.Attempt boot result es)
    (r : Reply s.reading) : s.Protocol boot (es ++ [⟨s.reading, r⟩]) := by
  cases h with
  | invalid he =>
    refine .unasked (.inl ?_) r
    rw [he]
    exact Option.some_ne_none _
  | unresolved _ hb => exact .unasked (.inr ⟨_, hb⟩) r
  | refused hv hb e => exact .refused hv hb e r
  | waited hv hb o rs hy =>
    have hne : rs ≠ [] := by
      intro hnil
      rw [hnil] at hy
      exact hy.ne_nil rfl
    exact .waited hv hb o rs hne r

/-- Each call is about the project and the zone of the scope. -/
theorem Protocol.located (h : s.Protocol boot es) :
    ∀ e ∈ es, e.1.project = s.project ∧ e.1.zone = s.zone := by
  have hpolls : ∀ (operation : String) (rs : List (Except ComputeError Operation)),
      ∀ e ∈ Service.polls s.project s.zone operation rs, e.1.project = s.project ∧
        e.1.zone = s.zone := by
    intro operation rs e he
    obtain ⟨r, _, rfl⟩ := List.mem_map.mp he
    exact ⟨rfl, rfl⟩
  cases h with
  | unasked _ r =>
    intro e he
    rw [List.mem_singleton.mp he]
    exact ⟨rfl, rfl⟩
  | refused _ _ _ r =>
    intro e he
    obtain rfl | he := List.mem_cons.mp he
    · exact ⟨rfl, rfl⟩
    · rw [List.mem_singleton.mp he]
      exact ⟨rfl, rfl⟩
  | waited _ _ o rs _ r =>
    intro e he
    obtain he | he := List.mem_append.mp he
    · obtain rfl | he := List.mem_cons.mp he
      · exact ⟨rfl, rfl⟩
      · exact hpolls _ _ e he
    · rw [List.mem_singleton.mp he]
      exact ⟨rfl, rfl⟩

/-- An instance is asked for once at most. -/
theorem Protocol.countP_insertion_le (h : s.Protocol boot es) :
    es.countP (fun e => e.1.method = .insertInstance) ≤ 1 := by
  have hpolls : ∀ (operation : String) (rs : List (Except ComputeError Operation)),
      (Service.polls s.project s.zone operation rs).countP (fun e =>
        e.1.method = .insertInstance) = 0 := by
    intro operation rs
    rw [List.countP_eq_zero]
    intro e he
    obtain ⟨r, _, rfl⟩ := List.mem_map.mp he
    simp [Call.method]
  cases h with
  | unasked _ r => simp [Call.method]
  | refused _ _ _ r => simp [Call.method]
  | waited _ _ o rs _ r =>
    rw [List.countP_append, List.countP_cons, hpolls]
    simp [Call.method]

end Scope

namespace Collaborators

variable {σ τ : Type} {c : Collaborators σ τ}

/-- Whatever the service replies, the calls made follow the protocol. Calls that are cut short have
come no further than waiting for an operation that every look finds under way: the clock can no
longer hold the durations, which it can where it had room for them, or as many looks were made as
can be counted. -/
theorem create_protocol (hs : c.service.Answers) (hk : c.secrets.Answers) (s : Scope)
    (t : Timeline (World (List Exchange × σ) τ)) :
    Ends (fun e u => c.polling.Stops e u.now ∧ c.SparesClock 3 t.now e ∧ ∃ es,
        u.world.compute.1 = t.world.compute.1 ++ es ∧
          s.CutShort (exec (c.traced.userData s) t).1 e es)
      (c.traced.create s) t fun _ u => ∃ es,
      u.world.compute.1 = t.world.compute.1 ++ es ∧ s.Protocol (exec (c.traced.userData s) t).1 es ∧
        (∀ e ∈ es, e.1.project = s.project ∧ e.1.zone = s.zone) ∧
        es.countP (fun e => e.1.method = .insertInstance) ≤ 1 := by
  have hspares : Ends (fun e _ => c.SparesClock 3 t.now e) (c.traced.create s) t fun _ _ => True :=
    ends_of_halts fun _ _ hrun _ h hroom => (h.traced.create hroom).of_halt hrun
  refine (hspares.and (create_traced_ends hs hk)).mono ?_ ?_
  · rintro e u ⟨hspare, hstop, _, hcut⟩
    exact ⟨hstop, hspare, hcut⟩
  · rintro x u ⟨_, es, r, hes, hu, _, _⟩
    have hp := hes.protocol r
    refine ⟨es ++ [⟨s.reading, r⟩], ?_, hp, hp.located, hp.countP_insertion_le⟩
    rw [hu, List.append_assoc]

theorem create_protocol_inMemory :
    Mock.service.Answers ∧ (SecretStore.memory ∅ : SecretStore MachineTable).Answers ∧
      Ends never ((inMemory default none).traced.create .small) (World.start ([], .new) .empty)
        fun _ u => ∃ es, u.world.compute.1 = es ∧
          Scope.small.Protocol
            (exec ((inMemory default none).traced.userData .small)
              (World.start ([], .new) .empty)).1 es ∧
          (∀ e ∈ es, e.1.project = "lab" ∧ e.1.zone = "us-east1-c") ∧
          es.countP (fun e => e.1.method = .insertInstance) ≤ 1 := by
  have hk : (SecretStore.memory ∅ : SecretStore MachineTable).Answers :=
    SecretStore.memory_answers ∅
  have hprotocol := create_protocol (c := inMemory default none) Mock.service_answers hk .small
    (World.start ([], .new) .empty)
  refine ⟨Mock.service_answers, hk, hprotocol.mono ?_ fun _ _ h => h⟩
  rintro e u ⟨hstop, hspare, _⟩
  exact not_stops_inMemory hspare u.now hstop

end Collaborators
end Provision
