import Provision.Log
import Provision.Time.Duration

/-!
Actions on a world that take place in time. The clock stands still but for sleeping, log lines are
kept in order, and an action ends early when the clock or a counter cannot go on.
-/
namespace Provision

/-- Why an action cannot go on. -/
inductive Halt where
  | clock
  | attempts
  deriving DecidableEq

structure Timeline (ω : Type) where
  now : Instant
  log : Array Log.Line
  world : ω

/-- An action on a world `ω`. What it has done stays done when it halts. -/
abbrev Timed (ω : Type) := ExceptT Halt (StateM (Timeline ω))

namespace Timed

variable {ω σ α : Type}

/-- The outcome of an action, and the timeline after it. -/
def exec (act : Timed ω α) (t : Timeline ω) : Except Halt α × Timeline ω := act.run.run t

def halt (h : Halt) : Timed ω α := throw h

def now : Timed ω Instant := do return (← getThe (Timeline ω)).now

def log (level : Log.Level) (source : Log.Source) (message : String)
    (fields : List (String × Log.Value)) : Timed ω Unit :=
  modifyThe (Timeline ω) fun t => { t with log := t.log.push ⟨level, source, message, fields⟩ }

def world : Timed ω ω := do return (← getThe (Timeline ω)).world

def setWorld (w : ω) : Timed ω Unit := modifyThe (Timeline ω) fun t => { t with world := w }

/-- Replaces the world by what `f` makes of it, and answers what `f` answers. -/
def update (f : ω → α × ω) : Timed ω α := do
  let (a, w) := f (← world)
  setWorld w
  return a

/-- The longest wait: thirty years of 365 days. -/
def longestSleep : Duration := .ofSeconds 946080000

/-- When a wait for `d` ends: at a whole millisecond, and no later than the longest wait does. -/
def wake (t : Instant) (d : Duration) : Instant :=
  (t.after (if longestSleep.nanos < d.nanos then longestSleep else d)).roundUp

/-- Waits for `d`. -/
def sleep (d : Duration) : Timed ω Unit :=
  modifyThe (Timeline ω) fun t => { t with now := wake t.now d }

/-- The instant `d` from `t`, if the clock can hold it. -/
def later (t : Instant) (d : Duration) : Timed ω Instant :=
  if (t.after d).nanos < Instant.bound then return t.after d else halt .clock

/-- Does an action. When it halts, `cleanup` is done before all halts. -/
def unwinding (cleanup : Timed ω Unit) (act : Timed ω α) : Timed ω α :=
  tryCatch act fun h => do
    cleanup
    halt h

/-- Does an action and then `cleanup`, also when the action halts. -/
def ending (cleanup : Timed ω Unit) (act : Timed ω α) : Timed ω α := do
  let a ← unwinding cleanup act
  cleanup
  return a

/-- An action on a part of the world. -/
def within (get : ω → σ) (set : σ → ω → ω) (act : Timed σ α) : Timed ω α :=
  ExceptT.mk fun t =>
    let (r, u) := act.exec ⟨t.now, t.log, get t.world⟩
    (r, ⟨u.now, u.log, set u.world t.world⟩)

@[simp] theorem exec_pure (a : α) (t : Timeline ω) : exec (pure a) t = (.ok a, t) := rfl

theorem exec_bind {β : Type} (act : Timed ω α) (f : α → Timed ω β) (t : Timeline ω) :
    exec (act >>= f) t =
      match exec act t with
      | (.ok a, u) => exec (f a) u
      | (.error h, u) => (.error h, u) := by
  rcases h : act.run.run t with ⟨_ | _, u⟩ <;> simp only [exec, ExceptT.run_bind,
    StateT.run_bind, h] <;> rfl

@[simp] theorem exec_log (l : Log.Level) (s : Log.Source) (m : String)
    (fs : List (String × Log.Value)) (t : Timeline ω) :
    exec (log l s m fs) t = (.ok (), { t with log := t.log.push ⟨l, s, m, fs⟩ }) := rfl

@[simp] theorem exec_now (t : Timeline ω) : exec now t = (.ok t.now, t) := rfl

@[simp] theorem exec_world (t : Timeline ω) : exec world t = (.ok t.world, t) := rfl

@[simp] theorem exec_setWorld (w : ω) (t : Timeline ω) :
    exec (setWorld w) t = (.ok (), { t with world := w }) := rfl

@[simp] theorem exec_update (f : ω → α × ω) (t : Timeline ω) :
    exec (update f) t = (.ok (f t.world).1, { t with world := (f t.world).2 }) := rfl

@[simp] theorem exec_sleep (d : Duration) (t : Timeline ω) :
    exec (sleep d) t = (.ok (), { t with now := wake t.now d }) := rfl

@[simp] theorem exec_halt (h : Halt) (t : Timeline ω) :
    exec (halt h : Timed ω α) t = (.error h, t) := rfl

theorem exec_unwinding (cleanup : Timed ω Unit) (act : Timed ω α) (t : Timeline ω) :
    exec (unwinding cleanup act) t =
      match exec act t with
      | (.ok a, u) => (.ok a, u)
      | (.error h, u) => exec (cleanup >>= fun _ => halt h) u := by
  rcases h : act.run.run t with ⟨_ | _, u⟩ <;>
    simp only [exec, unwinding, tryCatch, tryCatchThe, MonadExceptOf.tryCatch, ExceptT.tryCatch,
      ExceptT.run, ExceptT.mk, StateT.run_bind] at h ⊢ <;>
    rw [h] <;> rfl

theorem ext_exec {act act' : Timed ω α} (h : ∀ t, exec act t = exec act' t) : act = act' :=
  funext h

/-- With nothing to clean up, halting is all that is done. -/
@[simp] theorem unwinding_pure (act : Timed ω α) : unwinding (pure ()) act = act := by
  refine ext_exec fun t => ?_
  rw [exec_unwinding]
  rcases exec act t with ⟨_ | _, u⟩ <;> rfl

@[simp] theorem ending_pure (act : Timed ω α) : ending (pure ()) act = act := by
  simp only [ending, unwinding_pure, pure_bind, bind_pure]

end Timed
end Provision
