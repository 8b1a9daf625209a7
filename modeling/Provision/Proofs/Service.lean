import Provision.Actuator.Waiter
import Provision.Proofs.Polling

/-!
Services as what they are asked and what they reply. Nothing is known of a service but that it
answers; what it is asked shows in the exchanges that lead from one of its states to another, and in
the list that a traced service keeps of them.
-/
namespace Provision

open Timed

/-- A call and its reply. -/
abbrev Exchange : Type := (c : Call) × Reply c

namespace Service

variable {σ : Type}

/-- Every call is answered, and not before it is made. -/
def Answers (s : Service σ) : Prop := ∀ q t, Ends never (s q) t fun _ u => t.now.nanos ≤ u.now.nanos

/-- The reply `r` to a call, given in the state `w`, leads to `w'`. -/
def Step (s : Service σ) (q : Call) (w : σ) (r : Reply q) (w' : σ) : Prop :=
  ∃ t u, exec (s q) t = (.ok r, u) ∧ t.world = w ∧ u.world = w'

/-- Exchanges, in order, that lead from one state to another. -/
inductive Steps (s : Service σ) : σ → List Exchange → σ → Prop
  | nil (w : σ) : Steps s w [] w
  | cons {w w' w'' : σ} {q : Call} {r : Reply q} {es : List Exchange} (first : s.Step q w r w')
      (rest : Steps s w' es w'') : Steps s w (⟨q, r⟩ :: es) w''

theorem Step.steps {s : Service σ} {q : Call} {w w' : σ} {r : Reply q} (h : s.Step q w r w') :
    s.Steps w [⟨q, r⟩] w' := .cons h (.nil w')

theorem Steps.append {s : Service σ} {w w' w'' : σ} {es es' : List Exchange} (h : s.Steps w es w')
    (h' : s.Steps w' es' w'') : s.Steps w (es ++ es') w'' := by
  induction h with
  | nil => exact h'
  | cons first _ ih => exact .cons first (ih h')

theorem Steps.of_append {s : Service σ} {w w'' : σ} {es es' : List Exchange}
    (h : s.Steps w (es ++ es') w'') :
    ∃ w', s.Steps w es w' ∧ s.Steps w' es' w'' := by
  induction es generalizing w with
  | nil => exact ⟨w, .nil w, h⟩
  | cons e es ih =>
    cases h with
    | cons first rest =>
      obtain ⟨w', hes, hes'⟩ := ih rest
      exact ⟨w', .cons first hes, hes'⟩

theorem Steps.single {s : Service σ} {w w' : σ} {q : Call} {r : Reply q}
    (h : s.Steps w [⟨q, r⟩] w') : s.Step q w r w' := by
  cases h with
  | cons first rest =>
    cases rest
    exact first

theorem Answers.ends {s : Service σ} (h : s.Answers) (q : Call) (t : Timeline σ) :
    Ends never (s q) t fun r u => s.Step q t.world r u.world ∧ t.now.nanos ≤ u.now.nanos := by
  obtain ⟨r, u, he, hu⟩ := (h q t).returns
  exact .answers he ⟨⟨t, u, he, rfl, rfl⟩, hu⟩

section Waiting

/-- Looks at an operation, and what each saw. -/
def polls (project zone operation : String) (rs : List (Except ComputeError Operation)) :
    List Exchange :=
  rs.map fun r => ⟨.getOperation project zone operation, r⟩

/-- What a look at an operation says of its progress. -/
def progress : Except ComputeError Operation → Except ComputeError (Progress Operation)
  | .error e => .error e
  | .ok o => .ok (if o.isDone then .done o else .pending o)

/-- Looks at an operation that end before one decides: each finds it under way, and when it is the
count that ends them, as many are made as can be counted. -/
structure Undecided (e : Halt) (rs : List (Except ComputeError Operation)) : Prop where
  pending : ∀ r ∈ rs, ∃ o, r = .ok o ∧ o.isDone = false
  counted : e = .attempts → rs.length = PollConfig.attemptLimit

theorem progress_eq_pending {r : Except ComputeError Operation} {o : Operation}
    (h : progress r = .ok (.pending o)) : r = .ok o ∧ o.isDone = false := by
  cases r with
  | error e => cases h
  | ok o' =>
    simp only [progress] at h
    split at h
    next => cases h
    next hdone =>
      cases h
      exact ⟨rfl, Bool.eq_false_iff.mpr hdone⟩

/-- What waiting for an operation answers when polling it came to an outcome. -/
def waited (project zone operation : String) :
    Except (PollError Operation ComputeError) (Operation × Nat) → Except ActuatorError Operation
  | .error (.aborted e) =>
    .error (.ofCompute
      ("failed to get operation " ++ operation ++ " in " ++ project ++ "/" ++ zone) e)
  | .error (.timeout elapsed attempts last) =>
    .error (.operationTimeout operation elapsed attempts (some last))
  | .ok (o, _) =>
    if o.faultList.isEmpty then .ok o else .error (.operationFailed operation o.faultList)

variable {s : Service σ} {project zone operation : String} {t : Timeline σ}

theorem check_ends (hs : s.Answers) :
    Ends never (s.check project zone operation) t fun x u =>
      ∃ r, x = progress r ∧ s.Step (.getOperation project zone operation) t.world r u.world ∧
        t.now.nanos ≤ u.now.nanos := by
  unfold check
  refine ends_bind (hs.ends _ t) fun r u ⟨hr, hu⟩ => ?_
  cases r with
  | error e => exact ends_pure ⟨.error e, rfl, hr, hu⟩
  | ok o =>
    refine ends_bind ends_log fun _ v ⟨hn, hw⟩ => ends_pure ⟨.ok o, rfl, ?_, ?_⟩
    · rwa [hw]
    · rwa [hn]

/-- Waiting comes to what polling does. -/
theorem wait_ends_of_poll {c : PollConfig} {stop : Halt → Timeline σ → Prop}
    {P : Except (PollError Operation ComputeError) (Operation × Nat) → Timeline σ → Prop}
    (h : ∀ v, v.now = t.now → v.world = t.world →
      Ends stop (poll c (s.check project zone operation)) v P) :
    Ends stop (s.wait c project zone operation) t fun x u =>
      ∃ y v, P y v ∧ x = waited project zone operation y ∧ u.world = v.world := by
  unfold wait
  refine ends_bind ends_log fun _ v ⟨hn, hw⟩ => ends_bind (h v hn hw) fun y u hy => ?_
  match y with
  | .error (.aborted e) => exact ends_pure ⟨_, u, hy, rfl, rfl⟩
  | .error (.timeout elapsed attempts last) => exact ends_pure ⟨_, u, hy, rfl, rfl⟩
  | .ok (o, attempts) =>
    simp only
    split
    next ho =>
      exact ends_bind ends_log fun _ z ⟨_, hz⟩ => ends_pure ⟨_, u, hy, (if_pos ho).symm, hz⟩
    next ho => exact ends_pure ⟨_, u, hy, (if_neg ho).symm, rfl⟩

theorem wait_ends (hs : s.Answers) {c : PollConfig} :
    Ends (fun e u => c.Stops e u.now ∧
        ∃ rs, Undecided e rs ∧ s.Steps t.world (polls project zone operation rs) u.world)
      (s.wait c project zone operation) t fun x u =>
      ∃ rs y, PollOutcome (rs.map progress) y ∧ x = waited project zone operation y ∧
        s.Steps t.world (polls project zone operation rs) u.world := by
  let R : List (Except ComputeError (Progress Operation)) → σ → Prop := fun xs w =>
    ∃ rs, xs = rs.map progress ∧ s.Steps t.world (polls project zone operation rs) w
  have hcheck : ∀ xs u, R xs u.world → Ends never (s.check project zone operation) u fun x u' =>
      R (xs ++ [x]) u'.world ∧ u.now.nanos ≤ u'.now.nanos := by
    rintro _ u ⟨rs, rfl, hrs⟩
    refine (check_ends hs).weaken fun x u' ⟨r, hx, hr, hu⟩ => ⟨⟨rs ++ [r], ?_, ?_⟩, hu⟩
    · rw [hx, List.map_append]
      rfl
    · unfold polls
      rw [List.map_append]
      exact hrs.append hr.steps
  have hpoll : ∀ v, v.now = t.now → v.world = t.world →
      Ends (fun e u => c.Stops e u.now ∧
          ∃ rs, Undecided e rs ∧ s.Steps t.world (polls project zone operation rs) u.world)
        (poll c (s.check project zone operation)) v fun y u =>
          ∃ xs, PollOutcome xs y ∧ R xs u.world := by
    intro v _ hv
    have hstart : R [] v.world := by
      rw [hv]
      exact ⟨[], rfl, .nil _⟩
    refine (poll_ends hcheck hstart).mono ?_ fun _ _ hq => hq
    rintro e u ⟨hstop, os, hcount, rs, hos, hrs⟩
    refine ⟨hstop, rs, ⟨fun r hr => ?_, fun he => ?_⟩, hrs⟩
    · have hseen : progress r ∈ os.map (.ok ∘ .pending) := hos ▸ List.mem_map_of_mem hr
      obtain ⟨o, _, ho⟩ := List.mem_map.mp hseen
      exact ⟨o, progress_eq_pending ho.symm⟩
    · have hlength := congrArg List.length hos
      rw [List.length_map, List.length_map] at hlength
      exact hlength.symm.trans (hcount he)
  refine (wait_ends_of_poll hpoll).weaken ?_
  rintro x u ⟨y, v, ⟨_, hy, rs, rfl, hrs⟩, hx, hu⟩
  rw [hu]
  exact ⟨rs, y, hy, hx, hrs⟩

end Waiting

/-- The service that also keeps what it was asked and what it replied, in order. -/
def traced (s : Service σ) : Service (List Exchange × σ) := fun q => do
  let r ← Timed.within (·.2) (fun w p => (p.1, w)) (s q)
  Timed.update fun p => (r, (p.1 ++ [⟨q, r⟩], p.2))

theorem exec_traced {s : Service σ} {q : Call} {t : Timeline (List Exchange × σ)} {r : Reply q}
    {u : Timeline σ} (h : exec (s q) ⟨t.now, t.log, t.world.2⟩ = (.ok r, u)) :
    exec (s.traced q) t = (.ok r, ⟨u.now, u.log, (t.world.1 ++ [⟨q, r⟩], u.world)⟩) := by
  unfold traced
  rw [exec_bind_of_ok (exec_within h), exec_update]

theorem exec_traced_error {s : Service σ} {q : Call} {t : Timeline (List Exchange × σ)} {e : Halt}
    {u : Timeline σ} (h : exec (s q) ⟨t.now, t.log, t.world.2⟩ = (.error e, u)) :
    exec (s.traced q) t = (.error e, ⟨u.now, u.log, (t.world.1, u.world)⟩) := by
  unfold traced
  rw [exec_bind_of_error (exec_within h)]

theorem Answers.traced {s : Service σ} (h : s.Answers) : s.traced.Answers := by
  intro q t
  obtain ⟨r, u, he, hu⟩ := (h q ⟨t.now, t.log, t.world.2⟩).returns
  exact .answers (exec_traced he) hu

theorem Step.of_traced {s : Service σ} {q : Call} {p p' : List Exchange × σ} {r : Reply q}
    (h : s.traced.Step q p r p') : p'.1 = p.1 ++ [⟨q, r⟩] ∧ s.Step q p.2 r p'.2 := by
  obtain ⟨t, u, he, rfl, rfl⟩ := h
  rcases hx : exec (s q) ⟨t.now, t.log, t.world.2⟩ with ⟨e | r', v⟩
  · rw [exec_traced_error hx] at he
    cases he
  · rw [exec_traced hx] at he
    cases he
    exact ⟨rfl, _, _, hx, rfl, rfl⟩

/-- What a traced service keeps is what it was asked, and what it replied. -/
theorem Steps.of_traced {s : Service σ} {p p' : List Exchange × σ} {es : List Exchange}
    (h : s.traced.Steps p es p') : p'.1 = p.1 ++ es ∧ s.Steps p.2 es p'.2 := by
  induction h with
  | nil => exact ⟨(List.append_nil _).symm, .nil _⟩
  | cons first _ ih =>
    obtain ⟨hw, hf⟩ := first.of_traced
    refine ⟨?_, .cons hf ih.2⟩
    rw [ih.1, hw, List.append_assoc]
    rfl

end Service
end Provision
