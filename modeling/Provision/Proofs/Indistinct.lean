import Provision.Proofs.Lockstep

/-!
Runs that cannot be told apart. They end at the same time, with the same log lines and for the same
reason, and the worlds they leave and their answers differ only where given relations let them.
-/
namespace Provision.Timed

variable {ω σ α β ε : Type}

/-- Two runs that end alike. -/
inductive Twin (L : ω → ω → Prop) (V : α → α → Prop) :
    Except Halt α × Timeline ω → Except Halt α × Timeline ω → Prop
  | answer (now : Instant) (log : Array Log.Line) {w w' : ω} {a a' : α}
      (hw : L w w') (ha : V a a') :
      Twin L V (.ok a, ⟨now, log, w⟩) (.ok a', ⟨now, log, w'⟩)
  | halt (now : Instant) (log : Array Log.Line) {w w' : ω} (e : Halt) (hw : L w w') :
      Twin L V (.error e, ⟨now, log, w⟩) (.error e, ⟨now, log, w'⟩)

/-- With the same answer, if any, only the worlds may differ. -/
theorem Twin.same {L : ω → ω → Prop} {x x' : Except Halt α × Timeline ω} (h : Twin L Eq x x') :
    x.1 = x'.1 ∧ x.2.now = x'.2.now ∧ x.2.log = x'.2.log ∧ L x.2.world x'.2.world := by
  cases h with
  | answer now log hw ha => exact ⟨congrArg Except.ok ha, rfl, rfl, hw⟩
  | halt now log e hw => exact ⟨rfl, rfl, rfl, hw⟩

/-- From worlds that are related, at the same time and after the same lines, the two actions end
alike. -/
def Indistinct (L : ω → ω → Prop) (V : α → α → Prop) (act act' : Timed ω α) : Prop :=
  ∀ now log ⦃w w'⦄, L w w' → Twin L V (exec act ⟨now, log, w⟩) (exec act' ⟨now, log, w'⟩)

section Rules

variable {L : ω → ω → Prop} {V : α → α → Prop} {W : β → β → Prop} {act act' : Timed ω α}

/-- In the same world the same action ends alike. -/
theorem indistinct_refl (act : Timed ω α) : Indistinct Eq Eq act act := by
  rintro now log w _ rfl
  rcases exec act ⟨now, log, w⟩ with ⟨e | a, u⟩
  · exact .halt _ _ e rfl
  · exact .answer _ _ rfl rfl

theorem indistinct_pure {a a' : α} (h : V a a') : Indistinct L V (pure a) (pure a') :=
  fun now log _ _ hw => .answer now log hw h

theorem indistinct_bind {f f' : α → Timed ω β} (h : Indistinct L V act act')
    (hf : ∀ a a', V a a' → Indistinct L W (f a) (f' a')) :
    Indistinct L W (act >>= f) (act' >>= f') := by
  intro now log w w' hw
  have hact := h now log hw
  rw [exec_bind, exec_bind]
  generalize exec act ⟨now, log, w⟩ = x at hact
  generalize exec act' ⟨now, log, w'⟩ = x' at hact
  cases hact with
  | answer now log hu ha => exact hf _ _ ha now log hu
  | halt now log e hu => exact .halt now log e hu

/-- After the same answer. -/
theorem indistinct_bind_eq {f f' : α → Timed ω β} (h : Indistinct L Eq act act')
    (hf : ∀ a, Indistinct L W (f a) (f' a)) : Indistinct L W (act >>= f) (act' >>= f') :=
  indistinct_bind h fun a _ ha => ha ▸ hf a

theorem indistinct_halt {e : Halt} : Indistinct L V (halt e) (halt e) :=
  fun now log _ _ hw => .halt now log e hw

theorem indistinct_unwinding {cleanup cleanup' : Timed ω Unit} (h : Indistinct L V act act')
    (hc : Indistinct L Eq cleanup cleanup') :
    Indistinct L V (unwinding cleanup act) (unwinding cleanup' act') := by
  intro now log w w' hw
  have hact := h now log hw
  rw [exec_unwinding, exec_unwinding]
  generalize exec act ⟨now, log, w⟩ = x at hact
  generalize exec act' ⟨now, log, w'⟩ = x' at hact
  cases hact with
  | answer now log hu ha => exact .answer now log hu ha
  | halt now log e hu => exact indistinct_bind_eq hc (fun _ => indistinct_halt) now log hu

theorem indistinct_now : Indistinct L Eq now now := fun now log _ _ hw => .answer now log hw rfl

theorem indistinct_sleep {d : Duration} : Indistinct L Eq (sleep d) (sleep d) :=
  fun now log _ _ hw => .answer (wake now d) log hw rfl

theorem indistinct_log {level : Log.Level} {source : Log.Source} {message : String}
    {fields : List (String × Log.Value)} :
    Indistinct L Eq (Timed.log level source message fields)
      (Timed.log level source message fields) :=
  fun now log _ _ hw => .answer now (log.push ⟨level, source, message, fields⟩) hw rfl

theorem indistinct_later {s : Instant} {d : Duration} :
    Indistinct L Eq (later s d) (later s d) := by
  unfold later
  split
  · exact indistinct_pure rfl
  · exact indistinct_halt

theorem indistinct_update {f f' : ω → α × ω}
    (h : ∀ ⦃w w'⦄, L w w' → V (f w).1 (f' w').1 ∧ L (f w).2 (f' w').2) :
    Indistinct L V (update f) (update f') := fun now log _ _ hw => .answer now log (h hw).2 (h hw).1

theorem indistinct_within {get : ω → σ} {set : σ → ω → ω} {K : σ → σ → Prop} {act act' : Timed σ α}
    (h : Indistinct K V act act') (hget : ∀ ⦃w w'⦄, L w w' → K (get w) (get w'))
    (hset : ∀ ⦃w w' x x'⦄, L w w' → K x x' → L (set x w) (set x' w')) :
    Indistinct L V (within get set act) (within get set act') := by
  intro now log w w' hw
  have hact := h now log (hget hw)
  generalize hx : exec act ⟨now, log, get w⟩ = x at hact
  generalize hx' : exec act' ⟨now, log, get w'⟩ = x' at hact
  cases hact with
  | answer now log hu ha =>
    rw [exec_within hx, exec_within hx']
    exact .answer now log (hset hw hu) ha
  | halt now log e hu =>
    rw [exec_within hx, exec_within hx']
    exact .halt now log e (hset hw hu)

theorem indistinct_logAll (ls : List Log.Line) :
    Indistinct L Eq (do for l in ls do Timed.log l.level l.source l.message l.fields : Timed ω Unit)
      (do for l in ls do Timed.log l.level l.source l.message l.fields) := by
  induction ls with
  | nil => exact indistinct_pure rfl
  | cons l ls ih =>
    simp only [List.forIn_cons, bind_assoc]
    refine indistinct_bind_eq indistinct_log fun _ => ?_
    simp only [pure_bind]
    exact ih

end Rules

section Polling

variable {L : ω → ω → Prop} {c : PollConfig} {check check' : Timed ω (Except ε (Progress α))}

/-- Checks that cannot be told apart are made equally often. -/
theorem pollFrom_indistinct (h : Indistinct L Eq check check') (started deadline : Instant)
    (fuel attempts : Nat) :
    Indistinct L Eq (pollFrom c check started deadline fuel attempts)
      (pollFrom c check' started deadline fuel attempts) := by
  induction fuel generalizing attempts with
  | zero => exact indistinct_halt
  | succ fuel ih =>
    unfold pollFrom
    refine indistinct_bind_eq h fun r => ?_
    cases r with
    | error e => exact indistinct_pure rfl
    | ok progress =>
      cases progress with
      | done a => exact indistinct_pure rfl
      | pending a =>
        refine indistinct_bind_eq indistinct_now fun n => ?_
        refine indistinct_bind_eq indistinct_later fun next => ?_
        split
        · exact indistinct_pure rfl
        · refine indistinct_bind_eq indistinct_log fun _ => ?_
          exact indistinct_bind_eq indistinct_sleep fun _ => ih (attempts + 1)

theorem poll_indistinct (h : Indistinct L Eq check check') :
    Indistinct L Eq (poll c check) (poll c check') := by
  unfold poll
  refine indistinct_bind_eq indistinct_now fun started => ?_
  exact indistinct_bind_eq indistinct_later fun deadline =>
    pollFrom_indistinct h started deadline _ _

end Polling

end Provision.Timed
