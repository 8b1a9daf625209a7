import Provision.Timeline

/-!
Rules for runs of actions: what an action answers and leaves behind, and where it may halt instead.
-/
namespace Provision.Timed

variable {ω σ α β : Type}

/-- From `t` the action answers as `Q` says, or halts where `stop` admits it. -/
inductive Ends (stop : Halt → Timeline ω → Prop) (act : Timed ω α) (t : Timeline ω)
    (Q : α → Timeline ω → Prop) : Prop
  | answers {a : α} {u : Timeline ω} (run : exec act t = (.ok a, u)) (holds : Q a u) :
      Ends stop act t Q
  | halts {e : Halt} {u : Timeline ω} (run : exec act t = (.error e, u)) (admitted : stop e u) :
      Ends stop act t Q

/-- Nowhere to halt. -/
def never : Halt → Timeline ω → Prop := fun _ _ => False

/-- Everywhere to halt. -/
def anywhere : Halt → Timeline ω → Prop := fun _ _ => True

/-- The error of a result. -/
def errorOf? {ε : Type} : Except ε α → Option ε
  | .ok _ => none
  | .error e => some e

theorem eq_error_of_errorOf? {ε : Type} {r : Except ε α} {e : ε} (h : errorOf? r = some e) :
    r = .error e := by
  cases r with
  | ok a => cases h
  | error e' => exact congrArg Except.error (Option.some.inj h)

section Rules

variable {stop stop' : Halt → Timeline ω → Prop} {act : Timed ω α} {t u : Timeline ω}
  {Q Q' : α → Timeline ω → Prop}

/-- What may not halt answers. -/
theorem Ends.returns (h : Ends never act t Q) : ∃ a u, exec act t = (.ok a, u) ∧ Q a u := by
  cases h with
  | answers run holds => exact ⟨_, _, run, holds⟩
  | halts _ admitted => exact admitted.elim

theorem ends_of_halts (h : ∀ e u, exec act t = (.error e, u) → stop e u) :
    Ends stop act t fun _ _ => True := by
  rcases hrun : exec act t with ⟨e | a, u⟩
  · exact .halts hrun (h e u hrun)
  · exact .answers hrun trivial

theorem Ends.of_run (h : Ends stop act t Q) {a : α} (run : exec act t = (.ok a, u)) : Q a u := by
  cases h with
  | answers run' holds =>
    rw [run] at run'
    cases run'
    exact holds
  | halts run' _ =>
    rw [run] at run'
    cases run'

theorem Ends.of_halt (h : Ends stop act t Q) {e : Halt} (run : exec act t = (.error e, u)) :
    stop e u := by
  cases h with
  | answers run' _ =>
    rw [run] at run'
    cases run'
  | halts run' admitted =>
    rw [run] at run'
    cases run'
    exact admitted

theorem Ends.mono (h : Ends stop act t Q) (hs : ∀ e u, stop e u → stop' e u)
    (hq : ∀ a u, Q a u → Q' a u) : Ends stop' act t Q' := by
  cases h with
  | answers run holds => exact .answers run (hq _ _ holds)
  | halts run admitted => exact .halts run (hs _ _ admitted)

theorem Ends.weaken (h : Ends stop act t Q) (hq : ∀ a u, Q a u → Q' a u) : Ends stop act t Q' :=
  h.mono (fun _ _ hs => hs) hq

theorem Ends.of_never (h : Ends never act t Q) : Ends stop act t Q :=
  h.mono (fun _ _ hs => hs.elim) fun _ _ hq => hq

/-- What is known of a run in two ways is known at once. -/
theorem Ends.and (h : Ends stop act t Q) (h' : Ends stop' act t Q') :
    Ends (fun e u => stop e u ∧ stop' e u) act t fun a u => Q a u ∧ Q' a u := by
  cases h with
  | answers run holds => exact .answers run ⟨holds, h'.of_run run⟩
  | halts run admitted => exact .halts run ⟨admitted, h'.of_halt run⟩

/-- Runs that are the same end the same. -/
theorem Ends.of_exec {act' : Timed ω α} {t' : Timeline ω} (h : Ends stop act' t' Q)
    (he : exec act t = exec act' t') : Ends stop act t Q := by
  cases h with
  | answers run holds => exact .answers (he.trans run) holds
  | halts run admitted => exact .halts (he.trans run) admitted

theorem exec_bind_of_ok {f : α → Timed ω β} {a : α} (h : exec act t = (.ok a, u)) :
    exec (act >>= f) t = exec (f a) u := by
  rw [exec_bind, h]

theorem exec_bind_of_error {f : α → Timed ω β} {e : Halt} (h : exec act t = (.error e, u)) :
    exec (act >>= f) t = (.error e, u) := by
  rw [exec_bind, h]

theorem ends_pure {a : α} (h : Q a t) : Ends stop (pure a) t Q := .answers (exec_pure a t) h

theorem ends_bind {f : α → Timed ω β} {R : β → Timeline ω → Prop} (h : Ends stop act t Q)
    (hf : ∀ a u, Q a u → Ends stop (f a) u R) : Ends stop (act >>= f) t R := by
  cases h with
  | answers run holds =>
    cases hf _ _ holds with
    | answers run' holds' => exact .answers ((exec_bind_of_ok run).trans run') holds'
    | halts run' admitted => exact .halts ((exec_bind_of_ok run).trans run') admitted
  | halts run admitted => exact .halts (exec_bind_of_error run) admitted

theorem ends_bind_of_exec {f : α → Timed ω β} {R : β → Timeline ω → Prop} {a : α}
    (h : exec act t = (.ok a, u)) (hf : Ends stop (f a) u R) : Ends stop (act >>= f) t R :=
  ends_bind (Q := fun b v => a = b ∧ u = v) (.answers h ⟨rfl, rfl⟩) fun _ _ ⟨ha, hu⟩ => ha ▸ hu ▸ hf

/-- Log lines change neither the clock nor the world. -/
theorem ends_log {l : Log.Level} {s : Log.Source} {m : String} {fs : List (String × Log.Value)} :
    Ends stop (log l s m fs) t fun _ u => u.now = t.now ∧ u.world = t.world :=
  .answers (exec_log l s m fs t) ⟨rfl, rfl⟩

theorem ends_now : Ends stop now t fun n u => t.now = n ∧ t = u := .answers (exec_now t) ⟨rfl, rfl⟩

theorem ends_sleep {d : Duration} :
    Ends stop (sleep d) t fun _ u => u.now = wake t.now d ∧ u.world = t.world :=
  .answers (exec_sleep d t) ⟨rfl, rfl⟩

theorem ends_update (f : ω → α × ω) :
    Ends stop (update f) t fun a u => u.now = t.now ∧ (a, u.world) = f t.world :=
  .answers (exec_update f t) ⟨rfl, rfl⟩

theorem exec_unwinding_of_ok {cleanup : Timed ω Unit} {a : α} (h : exec act t = (.ok a, u)) :
    exec (unwinding cleanup act) t = (.ok a, u) := by
  rw [exec_unwinding, h]

theorem exec_unwinding_of_error {cleanup : Timed ω Unit} {e : Halt}
    (h : exec act t = (.error e, u)) :
    exec (unwinding cleanup act) t = exec (cleanup >>= fun _ => halt e) u := by
  rw [exec_unwinding, h]

/-- What is cleaned up makes no difference to the answers. -/
theorem ends_unwinding {cleanup : Timed ω Unit} (h : Ends stop act t Q)
    (hs : ∀ e u, stop e u → Ends never cleanup u fun _ v => stop' e v) :
    Ends stop' (unwinding cleanup act) t Q := by
  cases h with
  | answers run holds => exact .answers (exec_unwinding_of_ok run) holds
  | halts run admitted =>
    obtain ⟨_, v, hv, hstop⟩ := (hs _ _ admitted).returns
    exact .halts ((exec_unwinding_of_error run).trans (exec_bind_of_ok hv)) hstop

theorem exec_within {get : ω → σ} {set : σ → ω → ω} {act : Timed σ α}
    {r : Except Halt α} {v : Timeline σ} (h : exec act ⟨t.now, t.log, get t.world⟩ = (r, v)) :
    exec (within get set act) t = (r, ⟨v.now, v.log, set v.world t.world⟩) := by
  have hw : exec (within get set act) t =
      ((exec act ⟨t.now, t.log, get t.world⟩).1,
        ⟨(exec act ⟨t.now, t.log, get t.world⟩).2.now, (exec act ⟨t.now, t.log, get t.world⟩).2.log,
          set (exec act ⟨t.now, t.log, get t.world⟩).2.world t.world⟩) := rfl
  rw [hw, h]

/-- An action on a part of the world halts where it does on that part alone. -/
theorem ends_within_of_halts {get : ω → σ} {set : σ → ω → ω} {act : Timed σ α}
    {part : Halt → Timeline σ → Prop} {P : α → Timeline σ → Prop}
    (h : Ends part act ⟨t.now, t.log, get t.world⟩ P)
    (hs : ∀ e v, part e v → stop e ⟨v.now, v.log, set v.world t.world⟩) :
    Ends stop (within get set act) t fun a u =>
      ∃ v, P a v ∧ u.now = v.now ∧ u.world = set v.world t.world := by
  cases h with
  | answers run holds => exact .answers (exec_within run) ⟨_, holds, rfl, rfl⟩
  | halts run admitted => exact .halts (exec_within run) (hs _ _ admitted)

theorem ends_within {get : ω → σ} {set : σ → ω → ω} {act : Timed σ α} {P : α → Timeline σ → Prop}
    (h : Ends never act ⟨t.now, t.log, get t.world⟩ P) :
    Ends stop (within get set act) t fun a u =>
      ∃ v, P a v ∧ u.now = v.now ∧ u.world = set v.world t.world :=
  ends_within_of_halts h fun _ _ hs => hs.elim

theorem ends_logAll (ls : List Log.Line) :
    Ends stop (do for l in ls do log l.level l.source l.message l.fields : Timed ω Unit) t
      fun _ u => u.now = t.now ∧ u.world = t.world := by
  induction ls generalizing t with
  | nil => exact ends_pure ⟨rfl, rfl⟩
  | cons l ls ih =>
    simp only [List.forIn_cons, bind_assoc]
    refine ends_bind ends_log fun _ u hu => ?_
    simp only [pure_bind]
    refine ih.weaken fun _ v hv => ?_
    exact ⟨hv.1.trans hu.1, hv.2.trans hu.2⟩

end Rules
end Provision.Timed
