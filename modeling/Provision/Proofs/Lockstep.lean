import Provision.Proofs.Persistence

/-!
Two runs side by side. Where all that is done for a machine comes out alike in both, a whole action
on the machine does, unless one of the runs halts: the answers differ in the names of operations at
most.
-/
namespace Provision

/-- Two results of one kind, with alike values or alike errors. -/
inductive Matched {ε α : Type} (E : ε → ε → Prop) (V : α → α → Prop) :
    Except ε α → Except ε α → Prop
  | error {e e' : ε} (h : E e e') : Matched E V (.error e) (.error e')
  | ok {a a' : α} (h : V a a') : Matched E V (.ok a) (.ok a')

namespace Timed

variable {ω σ α β : Type}

/-- Both runs answer as `Q` says, unless one of them halts. -/
inductive Abreast (act act' : Timed ω α) (t t' : Timeline ω)
    (Q : α → Timeline ω → α → Timeline ω → Prop) : Prop
  | answer {a a' : α} {u u' : Timeline ω} (run : exec act t = (.ok a, u))
      (run' : exec act' t' = (.ok a', u')) (holds : Q a u a' u') : Abreast act act' t t' Q
  | left {e : Halt} {u : Timeline ω} (run : exec act t = (.error e, u)) : Abreast act act' t t' Q
  | right {e : Halt} {u : Timeline ω} (run' : exec act' t' = (.error e, u)) :
      Abreast act act' t t' Q

section Rules

variable {act act' : Timed ω α} {t t' : Timeline ω} {Q Q' : α → Timeline ω → α → Timeline ω → Prop}

theorem Abreast.weaken (h : Abreast act act' t t' Q)
    (hq : ∀ a u a' u', Q a u a' u' → Q' a u a' u') :
    Abreast act act' t t' Q' := by
  cases h with
  | answer run run' holds => exact .answer run run' (hq _ _ _ _ holds)
  | left run => exact .left run
  | right run' => exact .right run'

/-- What every answer of the one run has may be used besides. -/
theorem Abreast.and_run {P : α → Timeline ω → Prop} (h : Abreast act act' t t' Q)
    (hp : ∀ a u, exec act t = (.ok a, u) → P a u) :
    Abreast act act' t t' fun a u a' u' => Q a u a' u' ∧ P a u := by
  cases h with
  | answer run run' holds => exact .answer run run' ⟨holds, hp _ _ run⟩
  | left run => exact .left run
  | right run' => exact .right run'

/-- Each run by itself answers or halts where it may, and when both answer they are abreast. -/
theorem Abreast.ends {stop : Halt → Timeline ω → Prop} {P P' : α → Timeline ω → Prop}
    (h : Abreast act act' t t' Q) (hl : Ends stop act t P) (hr : Ends stop act' t' P') :
    Ends stop act t fun a u => Ends stop act' t' fun a' u' => Q a u a' u' := by
  cases hl with
  | halts run admitted => exact .halts run admitted
  | answers run _ =>
    refine .answers run ?_
    cases hr with
    | halts run' admitted => exact .halts run' admitted
    | answers run' _ =>
      refine .answers run' ?_
      cases h with
      | answer hrun hrun' holds =>
        cases run.symm.trans hrun
        cases run'.symm.trans hrun'
        exact holds
      | left hrun => cases run.symm.trans hrun
      | right hrun' => cases run'.symm.trans hrun'

theorem abreast_pure {a a' : α} (h : Q a t a' t') : Abreast (pure a) (pure a') t t' Q :=
  .answer (exec_pure a t) (exec_pure a' t') h

theorem abreast_bind {f f' : α → Timed ω β} {R : β → Timeline ω → β → Timeline ω → Prop}
    (h : Abreast act act' t t' Q) (hf : ∀ a u a' u', Q a u a' u' → Abreast (f a) (f' a') u u' R) :
    Abreast (act >>= f) (act' >>= f') t t' R := by
  cases h with
  | left run => exact .left (exec_bind_of_error run)
  | right run' => exact .right (exec_bind_of_error run')
  | answer run run' holds =>
    cases hf _ _ _ _ holds with
    | answer hrun hrun' hR =>
      exact .answer ((exec_bind_of_ok run).trans hrun) ((exec_bind_of_ok run').trans hrun') hR
    | left hrun => exact .left ((exec_bind_of_ok run).trans hrun)
    | right hrun' => exact .right ((exec_bind_of_ok run').trans hrun')

/-- What is cleaned up where one of the runs halts is of no account. -/
theorem abreast_unwinding {cleanup cleanup' : Timed ω Unit} (h : Abreast act act' t t' Q) :
    Abreast (unwinding cleanup act) (unwinding cleanup' act') t t' Q := by
  have hhalts : ∀ {act : Timed ω α} {cleanup : Timed ω Unit} {t u : Timeline ω} {e : Halt},
      exec act t = (.error e, u) → ∃ e' v, exec (unwinding cleanup act) t = (.error e', v) := by
    intro act cleanup t u e hrun
    rw [exec_unwinding_of_error hrun]
    rcases hc : exec cleanup u with ⟨e' | _, v⟩
    · exact ⟨e', v, exec_bind_of_error hc⟩
    · exact ⟨e, v, exec_bind_of_ok hc⟩
  cases h with
  | answer run run' holds =>
    exact .answer (exec_unwinding_of_ok run) (exec_unwinding_of_ok run') holds
  | left run =>
    obtain ⟨_, _, hrun⟩ := hhalts run
    exact .left hrun
  | right run' =>
    obtain ⟨_, _, hrun⟩ := hhalts run'
    exact .right hrun

theorem abreast_bind_of_exec {f f' : α → Timed ω β}
    {R : β → Timeline ω → β → Timeline ω → Prop} {a a' : α} {u u' : Timeline ω}
    (run : exec act t = (.ok a, u)) (run' : exec act' t' = (.ok a', u'))
    (h : Abreast (f a) (f' a') u u' R) : Abreast (act >>= f) (act' >>= f') t t' R :=
  abreast_bind (Q := fun b v b' v' => a = b ∧ u = v ∧ a' = b' ∧ u' = v')
    (.answer run run' ⟨rfl, rfl, rfl, rfl⟩)
    fun _ _ _ _ ⟨ha, hu, ha', hu'⟩ => ha ▸ hu ▸ ha' ▸ hu' ▸ h

/-- Runs that always answer are abreast when their answers are as they should. -/
theorem abreast_of_ends {P P' : α → Timeline ω → Prop} (h : Ends never act t P)
    (h' : Ends never act' t' P') (hq : ∀ a u a' u', P a u → P' a' u' → Q a u a' u') :
    Abreast act act' t t' Q := by
  obtain ⟨a, u, run, holds⟩ := h.returns
  obtain ⟨a', u', run', holds'⟩ := h'.returns
  exact .answer run run' (hq a u a' u' holds holds')

theorem abreast_within {get : ω → σ} {set : σ → ω → ω} {act act' : Timed σ α}
    {P : α → Timeline σ → α → Timeline σ → Prop}
    (h : Abreast act act' ⟨t.now, t.log, get t.world⟩ ⟨t'.now, t'.log, get t'.world⟩ P)
    (hq : ∀ a v a' v', P a v a' v' →
      Q a ⟨v.now, v.log, set v.world t.world⟩ a' ⟨v'.now, v'.log, set v'.world t'.world⟩) :
    Abreast (within get set act) (within get set act') t t' Q := by
  cases h with
  | answer run run' holds => exact .answer (exec_within run) (exec_within run') (hq _ _ _ _ holds)
  | left run => exact .left (exec_within run)
  | right run' => exact .right (exec_within run')

end Rules

/-- A relation of timelines that log lines, whatever they say, do not disturb. -/
def BearsLines (L : Timeline ω → Timeline ω → Prop) : Prop :=
  ∀ ⦃t t'⦄ (l l' : Log.Line), L t t' →
    L { t with log := t.log.push l } { t' with log := t'.log.push l' }

theorem BearsLines.log {L : Timeline ω → Timeline ω → Prop} (h : BearsLines L)
    {t t' : Timeline ω} (ht : L t t') {level level' : Log.Level} {source source' : Log.Source}
    {message message' : String} {fields fields' : List (String × Log.Value)} :
    Abreast (Timed.log level source message fields) (Timed.log level' source' message' fields') t t'
      fun _ u _ u' => L u u' :=
  .answer (exec_log ..) (exec_log ..) (h _ _ ht)

theorem BearsLines.logAll {L : Timeline ω → Timeline ω → Prop} (h : BearsLines L)
    (ls : List Log.Line) {t t' : Timeline ω} (ht : L t t') :
    Abreast (do for l in ls do Timed.log l.level l.source l.message l.fields : Timed ω Unit)
      (do for l in ls do Timed.log l.level l.source l.message l.fields) t t'
        fun _ u _ u' => L u u' := by
  induction ls generalizing t t' with
  | nil => exact abreast_pure ht
  | cons l ls ih =>
    simp only [List.forIn_cons, bind_assoc]
    refine abreast_bind (h.log ht) fun _ u _ u' hu => ?_
    simp only [pure_bind]
    exact ih hu

end Timed

open Timed

/-- The two instants differ by whole milliseconds: they are as far from `b` and from `b'` of
them. -/
def Instant.Level (b b' : Nat) (n n' : Instant) : Prop :=
  n.nanos + b' * 1000000 = n'.nanos + b * 1000000

namespace Instant.Level

variable {b b' : Nat} {n n' s s' : Instant}

theorem after (h : Level b b' n n') (d : Duration) : Level b b' (n.after d) (n'.after d) := by
  simp only [Level, nanos_after] at *
  omega

theorem roundUp (h : Level b b' n n') : Level b b' n.roundUp n'.roundUp := by
  simp only [Level, Instant.roundUp] at *
  omega

theorem wake (h : Level b b' n n') (d : Duration) : Level b b' (wake n d) (wake n' d) := by
  unfold Timed.wake
  exact (h.after _).roundUp

theorem since_eq (h : Level b b' n n') (hs : Level b b' s s') : n.since s = n'.since s' := by
  simp only [Level] at *
  simp only [since, Duration.mk.injEq]
  omega

theorem lt_iff (h : Level b b' n n') (hs : Level b b' s s') :
    n.nanos < s.nanos ↔ n'.nanos < s'.nanos := by
  simp only [Level] at *
  omega

theorem of_mod_eq (h : n.nanos % 1000000 = n'.nanos % 1000000) :
    Level (n.nanos / 1000000) (n'.nanos / 1000000) n n' := by
  simp only [Level]
  omega

end Instant.Level

section Polling

variable {ω σ α ε : Type} {b b' : Nat} {L : Timeline ω → Timeline ω → Prop} {A : α → α → Prop}

inductive Progress.Alike (A : α → α → Prop) : Progress α → Progress α → Prop
  | done {a a' : α} (h : A a a') : Alike A (.done a) (.done a')
  | pending {a a' : α} (h : A a a') : Alike A (.pending a) (.pending a')

inductive PollError.Alike (A : α → α → Prop) : PollError α ε → PollError α ε → Prop
  | timeout (elapsed : Duration) (attempts : Nat) {a a' : α} (h : A a a') :
      Alike A (.timeout elapsed attempts a) (.timeout elapsed attempts a')
  | aborted (e : ε) : Alike A (.aborted e) (.aborted e)

/-- The relation outlasts what waiting does: lines, and sleeps of both runs for as long. -/
structure Lasts (b b' : Nat) (d : Duration) (L : Timeline ω → Timeline ω → Prop) : Prop where
  lines : BearsLines L
  clock : ∀ {t t'}, L t t' → t.now.Level b b' t'.now
  sleep : ∀ {t t'}, L t t' → L { t with now := wake t.now d } { t' with now := wake t'.now d }

theorem abreast_later {t t' : Timeline ω} {s s' : Instant} {d : Duration}
    (hs : s.Level b b' s') (ht : L t t') :
    Abreast (later s d) (later s' d) t t' fun n u n' u' => n.Level b b' n' ∧ L u u' := by
  unfold later
  split
  next =>
    split
    next => exact abreast_pure ⟨hs.after d, ht⟩
    next => exact .right (exec_halt ..)
  next => exact .left (exec_halt ..)

theorem Lasts.now {d : Duration} (h : Lasts b b' d L) {t t' : Timeline ω} (ht : L t t') :
    Abreast now now t t' fun n u n' u' => n.Level b b' n' ∧ L u u' :=
  .answer (exec_now t) (exec_now t') ⟨h.clock ht, ht⟩

theorem Lasts.sleeps {d : Duration} (h : Lasts b b' d L) {t t' : Timeline ω} (ht : L t t') :
    Abreast (Timed.sleep d) (Timed.sleep d) t t' fun _ u _ u' => L u u' :=
  .answer (exec_sleep d t) (exec_sleep d t') (h.sleep ht)

/-- Checks that see alike are made equally often, and come to the same end. -/
theorem pollFrom_abreast {c : PollConfig} {check check' : Timed ω (Except ε (Progress α))}
    (h : Lasts b b' c.interval L)
    (hcheck : ∀ {t t'}, L t t' → Abreast check check' t t' fun r u r' u' =>
      L u u' ∧ Matched Eq (Progress.Alike A) r r')
    {started started' deadline deadline' : Instant} (hstarted : started.Level b b' started')
    (hdeadline : deadline.Level b b' deadline') (fuel attempts : Nat)
    {t t' : Timeline ω} (ht : L t t') :
    Abreast (pollFrom c check started deadline fuel attempts)
      (pollFrom c check' started' deadline' fuel attempts)
      t t' fun x u x' u' =>
      L u u' ∧ Matched (PollError.Alike A) (fun y y' => A y.1 y'.1 ∧ y.2 = y'.2) x x' := by
  induction fuel generalizing attempts t t' with
  | zero => exact .left (exec_halt ..)
  | succ fuel ih =>
    unfold pollFrom
    refine abreast_bind (hcheck ht) fun r u r' u' hreply => ?_
    obtain ⟨hu, hr⟩ := hreply
    cases hr with
    | error he => exact abreast_pure ⟨hu, .error (he ▸ .aborted _)⟩
    | ok hp =>
      cases hp with
      | done ha => exact abreast_pure ⟨hu, .ok ⟨ha, rfl⟩⟩
      | pending ha =>
        refine abreast_bind (h.now hu) fun now v now' v' hread => ?_
        obtain ⟨hnow, hv⟩ := hread
        refine abreast_bind (abreast_later hnow hv) fun next w next' w' hlater => ?_
        obtain ⟨hnext, hw⟩ := hlater
        -- Both runs give up at this check, or neither does.
        by_cases hlate : deadline.nanos < next.nanos
        · have hlate' : deadline'.nanos < next'.nanos := (hdeadline.lt_iff hnext).mp hlate
          simp only [hlate, hlate', if_true]
          refine abreast_pure ⟨hw, .error ?_⟩
          rw [hnow.since_eq hstarted]
          exact .timeout _ _ ha
        · have hlate' : ¬deadline'.nanos < next'.nanos :=
            fun hl => hlate ((hdeadline.lt_iff hnext).mpr hl)
          simp only [hlate, hlate', if_false]
          refine abreast_bind (h.lines.log hw) fun _ x _ x' hx => ?_
          exact abreast_bind (h.sleeps hx) fun _ y _ y' hy => ih _ hy

theorem poll_abreast {c : PollConfig} {check check' : Timed ω (Except ε (Progress α))}
    (h : Lasts b b' c.interval L)
    (hcheck : ∀ {t t'}, L t t' → Abreast check check' t t' fun r u r' u' =>
      L u u' ∧ Matched Eq (Progress.Alike A) r r')
    {t t' : Timeline ω} (ht : L t t') :
    Abreast (poll c check) (poll c check') t t' fun x u x' u' =>
      L u u' ∧ Matched (PollError.Alike A) (fun y y' => A y.1 y'.1 ∧ y.2 = y'.2) x x' := by
  unfold poll
  refine abreast_bind (h.now ht) fun started u started' u' ⟨hstarted, hu⟩ => ?_
  refine abreast_bind (abreast_later hstarted hu) fun deadline v deadline' v' ⟨hdeadline, hv⟩ => ?_
  exact pollFrom_abreast h hcheck hstarted hdeadline _ _ hv

end Polling

section Waiting

/-- Operations that differ in their names at most. -/
structure Operation.Alike (N : String → String → Prop) (o o' : Operation) : Prop where
  name : N o.name o'.name
  kind : o.kind = o'.kind
  state : o.state = o'.state
  target : o.target = o'.target
  faults : o.faults = o'.faults

/-- Where an error says that an operation could not be looked at. -/
def Service.unfetched (project zone operation : String) : String :=
  "failed to get operation " ++ operation ++ " in " ++ project ++ "/" ++ zone

/-- Errors that differ at most in the name of the operation they tell of. -/
inductive ActuatorError.Alike (N : String → String → Prop) : ActuatorError → ActuatorError → Prop
  | same (e : ActuatorError) : Alike N e e
  | notFound {o o' : String} (h : N o o') (project zone : String) (e : ComputeError) :
      Alike N (.notFound (Service.unfetched project zone o) e)
        (.notFound (Service.unfetched project zone o') e)
  | provider {o o' : String} (h : N o o') (project zone : String) (e : ComputeError) :
      Alike N (.provider (Service.unfetched project zone o) e)
        (.provider (Service.unfetched project zone o') e)
  | operationTimeout {o o' : String} (h : N o o') (elapsed : Duration) (attempts : Nat)
      {last last' : Operation} (hl : last.Alike N last') :
      Alike N (.operationTimeout o elapsed attempts (some last))
        (.operationTimeout o' elapsed attempts (some last'))
  | operationFailed {o o' : String} (h : N o o') (faults : List OperationFault) :
      Alike N (.operationFailed o faults) (.operationFailed o' faults)

variable {σ : Type} {N : String → String → Prop} {b b' : Nat} {L : Timeline σ → Timeline σ → Prop}

theorem ActuatorError.Alike.unfetched {o o' : String} (h : N o o') (project zone : String)
    (e : ComputeError) :
    Alike N (.ofCompute (Service.unfetched project zone o) e)
      (.ofCompute (Service.unfetched project zone o') e) := by
  unfold ofCompute
  split
  next => exact .notFound h project zone e
  next => exact .provider h project zone e

/-- Waiting for operations that look alike at every fetch comes out alike. -/
theorem Service.wait_abreast {s : Service σ} {c : PollConfig}
    {project zone o o' : String} (hN : N o o') (h : Lasts b b' c.interval L)
    (hfetch : ∀ {t t'}, L t t' →
      Abreast (s (.getOperation project zone o)) (s (.getOperation project zone o')) t t'
      fun r u r' u' => L u u' ∧ Matched Eq (Operation.Alike N) r r')
    {t t' : Timeline σ} (ht : L t t') :
    Abreast (s.wait c project zone o) (s.wait c project zone o') t t' fun x u x' u' =>
      L u u' ∧ Matched (ActuatorError.Alike N) (fun _ _ => True) x x' := by
  have hcheck : ∀ {t t'}, L t t' → Abreast (s.check project zone o) (s.check project zone o') t t'
      fun r u r' u' => L u u' ∧ Matched Eq (Progress.Alike (Operation.Alike N)) r r' := by
    intro t t' ht
    unfold check
    refine abreast_bind (hfetch ht) fun r u r' u' ⟨hu, hr⟩ => ?_
    cases hr with
    | error he => exact abreast_pure ⟨hu, .error he⟩
    | @ok a a' ha =>
      refine abreast_bind (h.lines.log hu) fun _ v _ v' hv => abreast_pure ⟨hv, .ok ?_⟩
      have hdone : a.isDone = a'.isDone := by rw [Operation.isDone, Operation.isDone, ha.state]
      rw [hdone]
      split
      · exact .done ha
      · exact .pending ha
  unfold wait
  refine abreast_bind (h.lines.log ht) fun _ u _ u' hu => ?_
  refine abreast_bind (poll_abreast h hcheck hu) fun y v y' v' ⟨hv, hy⟩ => ?_
  cases hy with
  | error he =>
    cases he with
    | aborted e => exact abreast_pure ⟨hv, .error (.unfetched hN project zone e)⟩
    | timeout elapsed attempts hl =>
      exact abreast_pure ⟨hv, .error (.operationTimeout hN elapsed attempts hl)⟩
  | @ok p p' hp =>
    obtain ⟨a, attempts⟩ := p
    obtain ⟨a', attempts'⟩ := p'
    have hfaults : a.faultList = a'.faultList := by
      rw [Operation.faultList, Operation.faultList, hp.1.faults]
    simp only [hfaults]
    split
    · exact abreast_bind (h.lines.log hv) fun _ w _ w' hw => abreast_pure ⟨hw, .ok trivial⟩
    · exact abreast_pure ⟨hv, .error (.operationFailed hN _)⟩

end Waiting

theorem World.record_abreast {σ τ : Type} {L : Timeline (World σ τ) → Timeline (World σ τ) → Prop}
    (hlines : BearsLines L) {r : Recorder} {e : Event}
    (hevent : ∀ {t t'}, L t t' →
      L { t with world := { t.world with events := t.world.events ++ [e] } }
      { t' with world := { t'.world with events := t'.world.events ++ [e] } })
    {t t' : Timeline (World σ τ)} (ht : L t t') :
    Abreast (World.record r e) (World.record r e) t t' fun _ u _ u' => L u u' := by
  unfold record
  exact abreast_bind_of_exec (exec_update ..) (exec_update ..) (hlines.logAll _ (hevent ht))

namespace Collaborators

variable {σ τ : Type} {c : Collaborators σ τ} {s : Scope} {N : String → String → Prop}
  {L : Timeline (World σ τ) → Timeline (World σ τ) → Prop}

/-- Alike results of work on a machine. -/
abbrev Results {α : Type} (N : String → String → Prop) :
    Except ActuatorError α → Except ActuatorError α → Prop :=
  Matched (ActuatorError.Alike N) Eq

theorem Results.firstFailure {α : Type} {r r' : Except ActuatorError α} (h : Results N r r')
    (closed : Except ActuatorError Unit) :
    Results N (firstFailure r closed) (firstFailure r' closed) := by
  cases h with
  | error h => cases closed <;> exact .error h
  | ok h =>
    cases closed with
    | error e => exact .error (.same e)
    | ok _ => exact .ok h

/-- How two requests that start operations come out: neither is granted, or waiting for the
operations comes out alike. -/
inductive Starts (c : Collaborators σ τ) (project zone : String) (N : String → String → Prop)
    (L : Timeline (World σ τ) → Timeline (World σ τ) → Prop) :
    Except ComputeError Operation → Timeline (World σ τ) → Except ComputeError Operation →
      Timeline (World σ τ) → Prop
  | refused {u u' : Timeline (World σ τ)} (e : ComputeError) (h : L u u') :
      Starts c project zone N L (.error e) u (.error e) u'
  | granted {u u' : Timeline (World σ τ)} {o o' : Operation}
      (h : Abreast (c.wait project zone o.name) (c.wait project zone o'.name) u u' fun x v x' v' =>
        L v v' ∧ Matched (ActuatorError.Alike N) (fun _ _ => True) x x') :
      Starts c project zone N L (.ok o) u (.ok o') u'

/-- All that may be done for a machine, done in two runs, comes out alike, but for the writing of
its status. -/
structure Tallies (c : Collaborators σ τ) (s : Scope) (N : String → String → Prop)
    (L : Timeline (World σ τ) → Timeline (World σ τ) → Prop) : Prop where
  lines : BearsLines L
  zoning : ∀ {t t'}, L t t' → Abreast (c.call s.zoning) (c.call s.zoning) t t'
    fun r u r' u' => L u u' ∧ r = r'
  reading : ∀ {t t'}, L t t' → Abreast (c.call s.reading) (c.call s.reading) t t' fun r u r' u' =>
    L u u' ∧ Matched Eq (fun i i' => i.name = i'.name ∧ i.observation? = i'.observation?) r r'
  insertion : ∀ data {t t'}, L t t' →
    Abreast (c.call (s.insertion data)) (c.call (s.insertion data)) t t'
      (c.Starts s.project s.zone N L)
  removal : ∀ {t t'}, L t t' →
    Abreast (c.call s.removal) (c.call s.removal) t t' (c.Starts s.project s.zone N L)
  secret : ∀ name {t t'}, L t t' →
    Abreast (c.secret s.machine.ns name) (c.secret s.machine.ns name) t t'
      fun r u r' u' => L u u' ∧ r = r'
  record : ∀ e {t t'}, L t t' →
    Abreast (World.record c.recorder e) (World.record c.recorder e) t t' fun _ u _ u' => L u u'

/-- Nothing that is asked for a machine depends on its status. -/
theorem Tallies.withStatus (h : c.Tallies s N L) (st : MachineStatus) :
    c.Tallies (s.withStatus st) N L :=
  ⟨h.lines, h.zoning, h.reading, h.insertion, h.removal, h.secret, h.record⟩

section Reconcile

variable (h : c.Tallies s N L) {t t' : Timeline (World σ τ)} (ht : L t t')

include h ht

theorem refresh_abreast :
    Abreast (c.refresh s) (c.refresh s) t t' fun x u x' u' => L u u' ∧ x = x' := by
  unfold refresh
  refine abreast_bind (h.reading ht) fun r u r' u' ⟨hu, hr⟩ => ?_
  cases hr with
  | error he => exact abreast_pure ⟨hu, by rw [he]⟩
  | @ok i i' hi =>
    obtain ⟨hname, hseen⟩ := hi
    simp only [hseen]
    split
    · exact abreast_pure ⟨hu, by rw [Instance.withoutInterface, Instance.withoutInterface, hname]⟩
    · exact abreast_bind (h.lines.log hu) fun _ v _ v' hv => abreast_pure ⟨hv, rfl⟩

theorem userData_abreast :
    Abreast (c.userData s) (c.userData s) t t' fun x u x' u' => L u u' ∧ x = x' := by
  unfold userData
  split
  · exact abreast_pure ⟨ht, rfl⟩
  · refine abreast_bind (h.secret _ ht) fun r u r' u' ⟨hu, hr⟩ => ?_
    subst hr
    split
    · exact abreast_pure ⟨hu, rfl⟩
    · split <;> exact abreast_pure ⟨hu, rfl⟩

theorem attempt_abreast :
    Abreast (c.attempt s) (c.attempt s) t t' fun x u x' u' => L u u' ∧ Results N x x' := by
  unfold attempt
  split
  · exact abreast_pure ⟨ht, .error (.same _)⟩
  · unfold insertAndWait
    refine abreast_bind (userData_abreast h ht) fun boot u boot' u' ⟨hu, hboot⟩ => ?_
    subst hboot
    cases boot with
    | error e => exact abreast_pure ⟨hu, .error (.same _)⟩
    | ok data =>
      refine abreast_bind (h.lines.log hu) fun _ v _ v' hv => ?_
      refine abreast_bind (h.insertion data hv) fun r w r' w' hw => ?_
      cases hw with
      | refused e hw => exact abreast_pure ⟨hw, .error (.same _)⟩
      | granted hwait =>
        refine abreast_bind hwait fun x y x' y' ⟨hy, hx⟩ => ?_
        cases hx with
        | error he => exact abreast_pure ⟨hy, .error he⟩
        | ok _ => exact abreast_bind (h.lines.log hy) fun _ z _ z' hz => abreast_pure ⟨hz, .ok rfl⟩

theorem tell_abreast {result result' : Except ActuatorError Unit} (hr : Results N result result') :
    Abreast (c.tell s result) (c.tell s result') t t' fun x u x' u' =>
      L u u' ∧ x = x' ∧ ∃ st, x = s.withStatus st := by
  have hkept : ∀ st, s.withStatus st = s → Abreast (pure s : Timed (World σ τ) Scope) (pure s) t t'
      fun x u x' u' => L u u' ∧ x = x' ∧ ∃ st, x = s.withStatus st :=
    fun st hst => abreast_pure ⟨ht, rfl, st, hst.symm⟩
  have hsurface : ∀ e, Abreast (c.surface s e) (c.surface s e) t t'
      fun x u x' u' => L u u' ∧ x = x' ∧ ∃ st, x = s.withStatus st := by
    intro e
    unfold surface
    refine abreast_bind (h.lines.log ht) fun _ u _ u' hu => ?_
    exact abreast_bind (h.record _ hu) fun _ v _ v' hv => abreast_pure ⟨hv, rfl, _, rfl⟩
  cases hr with
  | ok => exact hkept s.status rfl
  | error he =>
    cases he with
    | same =>
      rename_i e
      cases e with
      | machine e => exact hsurface e
      | _ => exact hkept s.status rfl
    | _ => exact hkept s.status rfl

theorem conclude_abreast {result result' : Except ActuatorError Unit}
    (hr : Results N result result') :
    Abreast (c.conclude result s) (c.conclude result' s) t t' fun x u x' u' =>
      L u u' ∧ Results N x.1 x'.1 ∧ x.2 = x'.2 := by
  have hfinish : ∀ s' {u u'}, L u u' → Abreast (c.finish result s') (c.finish result' s') u u'
      fun x v x' v' =>
        L v v' ∧ Results N x.1 x'.1 ∧ x.2 = x'.2 := by
    intro s' u u' hu
    cases hr with
    | error he => exact abreast_pure ⟨hu, .error he, rfl⟩
    | ok => exact abreast_bind (h.record _ hu) fun _ v _ v' hv => abreast_pure ⟨hv, .ok rfl, rfl⟩
  unfold conclude
  refine abreast_bind (abreast_unwinding (refresh_abreast h ht)) fun x u x' u' ⟨hu, hx⟩ => ?_
  subst hx
  obtain ⟨refreshed, s'⟩ := x
  cases refreshed with
  | error e => exact abreast_bind (h.lines.log hu) fun _ v _ v' hv => hfinish s' hv
  | ok _ => exact hfinish s' hu

theorem create_abreast :
    Abreast (c.create s) (c.create s) t t' fun x u x' u' =>
      L u u' ∧ Results N x.1 x'.1 ∧ x.2 = x'.2 := by
  rw [create_eq]
  refine abreast_bind (abreast_unwinding (attempt_abreast h ht))
    fun result u result' u' ⟨hu, hr⟩ => ?_
  refine abreast_bind (tell_abreast h hu hr) fun s' v s'' v' ⟨hv, hs, st, hst⟩ => ?_
  subst hs hst
  exact conclude_abreast (h.withStatus st) hv hr

theorem update_abreast :
    Abreast (c.update s) (c.update s) t t' fun x u x' u' =>
      L u u' ∧ Results N x.1 x'.1 ∧ x.2 = x'.2 := by
  unfold update
  refine abreast_bind (refresh_abreast h ht) fun x u x' u' ⟨hu, hx⟩ => ?_
  subst hx
  obtain ⟨refreshed, s'⟩ := x
  cases refreshed with
  | error e => exact abreast_pure ⟨hu, .error (.same e), rfl⟩
  | ok _ => exact abreast_pure ⟨hu, .ok rfl, rfl⟩

theorem instanceExists_abreast :
    Abreast (c.instanceExists s) (c.instanceExists s) t t' fun x u x' u' => L u u' ∧ x = x' := by
  unfold instanceExists
  split
  · exact abreast_pure ⟨ht, rfl⟩
  · refine abreast_bind (h.zoning ht) fun r u r' u' ⟨hu, hr⟩ => ?_
    subst hr
    cases r with
    | error e => exact abreast_pure ⟨hu, rfl⟩
    | ok z =>
      refine abreast_bind (h.reading hu) fun r v r' v' ⟨hv, hr⟩ => ?_
      cases hr with
      | ok => exact abreast_bind (h.lines.log hv) fun _ w _ w' hw => abreast_pure ⟨hw, rfl⟩
      | error he =>
        subst he
        dsimp only
        split
        · exact abreast_bind (h.lines.log hv) fun _ w _ w' hw => abreast_pure ⟨hw, rfl⟩
        · exact abreast_pure ⟨hv, rfl⟩

theorem delete_abreast :
    Abreast (c.delete s) (c.delete s) t t' fun x u x' u' => L u u' ∧ Results N x x' := by
  unfold delete
  refine abreast_bind (instanceExists_abreast h ht) fun found u found' u' ⟨hu, hfound⟩ => ?_
  subst hfound
  match found with
  | .error e => exact abreast_pure ⟨hu, .error (.same e)⟩
  | .ok false => exact abreast_bind (h.lines.log hu) fun _ v _ v' hv => abreast_pure ⟨hv, .ok rfl⟩
  | .ok true =>
    refine abreast_bind (h.lines.log hu) fun _ v _ v' hv => ?_
    refine abreast_bind (h.removal hv) fun r w r' w' hw => ?_
    cases hw with
    | refused e hw =>
      dsimp only
      split
      · exact abreast_bind (h.lines.log hw) fun _ x _ x' hx => abreast_pure ⟨hx, .ok rfl⟩
      · exact abreast_pure ⟨hw, .error (.same _)⟩
    | granted hwait =>
      refine abreast_bind hwait fun x y x' y' ⟨hy, hx⟩ => ?_
      cases hx with
      | error he => exact abreast_pure ⟨hy, .error he⟩
      | ok _ => exact abreast_bind (h.lines.log hy) fun _ z _ z' hz => abreast_pure ⟨hz, .ok rfl⟩

/-- Work on a machine comes out alike in both runs, and leaves it in the same status. -/
theorem reconcile_abreast (a : Action) :
    Abreast (c.reconcile s a) (c.reconcile s a) t t' fun x u x' u' =>
      L u u' ∧ Results N x.1 x'.1 ∧ x.2 = x'.2 := by
  match a with
  | .create => exact create_abreast h ht
  | .update => exact abreast_unwinding (update_abreast h ht)
  | .exists =>
    refine abreast_bind (abreast_unwinding (instanceExists_abreast h ht)) ?_
    rintro x u x' u' ⟨hu, hx⟩
    refine abreast_pure ⟨hu, ?_, rfl⟩
    subst hx
    cases x with
    | error e => exact .error (.same e)
    | ok b => exact .ok rfl
  | .delete =>
    exact abreast_bind (abreast_unwinding (delete_abreast h ht)) fun x u x' u' ⟨hu, hx⟩ =>
      abreast_pure ⟨hu, hx, rfl⟩

end Reconcile

section Perform

variable (h : c.Tallies s N L) (hwrite : ∀ st {t t'}, L t t' →
  Abreast (World.onStorage (c.machines (s.machine.withStatus st)))
    (World.onStorage (c.machines (s.machine.withStatus st))) t t' fun r u r' u' => L u u' ∧ r = r')

include h hwrite

theorem close_abreast (st : MachineStatus) {t t' : Timeline (World σ τ)} (ht : L t t') :
    Abreast (c.close (s.withStatus st)) (c.close (s.withStatus st)) t t' fun x u x' u' =>
      L u u' ∧ x = x' := by
  rw [close_eq]
  unfold persist
  split
  · refine abreast_bind (hwrite st ht) fun r u r' u' ⟨hu, hr⟩ => ?_
    subst hr
    cases r with
    | error e => exact abreast_pure ⟨hu, rfl⟩
    | ok _ => exact abreast_bind (h.lines.log hu) fun _ v _ v' hv => abreast_pure ⟨hv, rfl⟩
  · exact abreast_bind (h.lines.log ht) fun _ v _ v' hv => abreast_pure ⟨hv, rfl⟩

theorem release_abreast {a : Action} {r r' : Except ActuatorError a.Answer} (hr : Results N r r')
    (st : MachineStatus) {t t' : Timeline (World σ τ)} (ht : L t t') :
    Abreast (c.release a r (s.withStatus st)) (c.release a r' (s.withStatus st)) t t'
      fun y u y' u' =>
        L u u' ∧ Results N y.result y'.result ∧ y.machine = y'.machine := by
  unfold release
  split
  · refine abreast_bind (close_abreast h hwrite st ht) fun closed u closed' u' ⟨hu, hclosed⟩ => ?_
    subst hclosed
    exact abreast_pure ⟨hu, hr.firstFailure closed, rfl⟩
  · exact abreast_pure ⟨ht, hr, rfl⟩

/-- An action on a machine comes out alike in both runs, where its work does and its writes do. -/
theorem performOn_abreast (hs : c.service.Answers) (hk : c.secrets.Answers) (a : Action)
    {t t' : Timeline (World σ τ)} (ht : L t t') :
    Abreast (c.performOn a s) (c.performOn a s) t t' fun y u y' u' =>
      L u u' ∧ Results N y.result y'.result ∧ y.machine = y'.machine := by
  rw [performOn_eq]
  have hwork := (reconcile_abreast h ht a).and_run fun x u hx => (reconcile_ends hs hk a).of_run hx
  refine abreast_bind hwork fun x u x' u' ⟨⟨hu, hr, hst⟩, ⟨st, hs'⟩, _⟩ => ?_
  obtain ⟨r, s'⟩ := x
  obtain ⟨r', s''⟩ := x'
  obtain rfl : s' = s'' := hst
  obtain rfl : s' = s.withStatus st := hs'
  have hrelease : ∀ {v v'}, L v v' →
      Abreast (c.release a r (s.withStatus st)) (c.release a r' (s.withStatus st))
      v v' fun y w y' w' => L w w' ∧ Results N y.result y'.result ∧ y.machine = y'.machine :=
    fun hv => release_abreast h hwrite hr st hv
  cases hr with
  | ok => exact hrelease hu
  | error => exact abreast_bind (h.lines.log hu) fun _ v _ v' hv => hrelease hv

end Perform

theorem perform_abreast {m : Machine} (hs : c.service.Answers) (hk : c.secrets.Answers)
    (hlines : BearsLines L) (h : ∀ s, Scope.acquire c.defaultProject m = .ok s → c.Tallies s N L)
    (hwrite : ∀ st {t t'}, L t t' → Abreast (World.onStorage (c.machines (m.withStatus st)))
      (World.onStorage (c.machines (m.withStatus st))) t t' fun r u r' u' => L u u' ∧ r = r')
    (a : Action) {t t' : Timeline (World σ τ)} (ht : L t t') :
    Abreast (c.perform a m) (c.perform a m) t t' fun y u y' u' =>
      L u u' ∧ Results N y.result y'.result ∧ y.machine = y'.machine := by
  unfold perform
  refine abreast_bind (hlines.log ht) fun _ u _ u' hu => ?_
  split
  next => exact abreast_pure ⟨hu, .error (.same _), rfl⟩
  next s hacq =>
    obtain rfl := Scope.machine_of_acquire hacq
    exact performOn_abreast (h s hacq) hwrite hs hk a hu

end Collaborators

end Provision
