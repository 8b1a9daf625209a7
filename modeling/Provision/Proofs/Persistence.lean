import Provision.Proofs.Invariants

/-!
What actions write. Making and updating an instance write the status once when it has changed, and
the other actions never write; the answer tells of the first failure; and every scope is let go.
-/
namespace Provision

open Timed

namespace Log

/-- A warning about a scope, as leaving one that was not let go gives it. -/
def Line.warnsOfScope (l : Line) : Bool := l.level = .warn && l.source = .scope

def scopeWarnings (ls : Array Line) : Nat := ls.countP Line.warnsOfScope

theorem scopeWarnings_push {ls : Array Line} {l : Line} (h : l.level = .warn → l.source ≠ .scope) :
    scopeWarnings (ls.push l) = scopeWarnings ls := by
  have hl : ¬l.warnsOfScope = true := by
    intro hw
    simp only [Line.warnsOfScope, Bool.and_eq_true, decide_eq_true_eq] at hw
    exact h hw.1 hw.2
  exact Array.countP_push_of_neg hl

end Log

/-- Leaving a scope that was not let go is told of when its status has changed. -/
theorem Scope.scopeWarnings_drop {ω : Type} (s : Scope) (t : Timeline ω) :
    Log.scopeWarnings (exec (s.drop : Timed ω Unit) t).2.log =
      Log.scopeWarnings t.log + if !s.released && s.isDirty then 1 else 0 := by
  unfold drop
  split
  next =>
    rw [exec_log]
    exact Array.countP_push_of_pos rfl
  next => rfl

/-- Work that halts is told of when the machine was not let go and its status has changed, and no
other work is. -/
theorem Scope.scopeWarnings_holding {ω α : Type} (s : Scope) (act : Timed ω α) (t : Timeline ω) :
    Log.scopeWarnings (exec (s.holding act) t).2.log =
      Log.scopeWarnings (exec act t).2.log +
        if !(exec act t).1.isOk && (!s.released && s.isDirty) then 1 else 0 := by
  rcases hrun : exec act t with ⟨e | a, u⟩
  · obtain ⟨_, v, hv, _⟩ := (drop_ends (s := s) (t := u)).returns
    have hheld : exec (s.holding act) t = (.error e, v) :=
      (exec_unwinding_of_error hrun).trans (exec_bind_of_ok hv)
    have hdrop := s.scopeWarnings_drop u
    rw [hv] at hdrop
    rw [hheld]
    exact hdrop
  · rw [exec_holding_of_ok hrun]
    rfl

-- Where a service halts at the read, a machine that was refused is left behind.
example :
    Log.scopeWarnings (exec
      ({ Collaborators.inMemory default (some "lab") with
          service := fun _ => halt .clock }.perform .create
        { Machine.small with spec := { Machine.small.spec with disks := [] } })
      (World.start Mock.new .empty)).2.log = 1 := by decide +kernel

/-- The store in memory answers every write, and well. -/
theorem MachineStore.memory_answers : MachineStore.memory.Answers fun _ => True :=
  memory_takes.answers

namespace Action

/-- An action begins. -/
def announced {ω : Type} (a : Action) (m : Machine) (t : Timeline ω) : Timeline ω :=
  { t with log := t.log.push ⟨.info, .action, a.announcement, [("machine", m.name)]⟩ }

/-- How an action lets its machine go, after work on it came out as `r` and left the status `st`:
what is written, and what is answered. -/
inductive Settles (a : Action) (m : Machine) (r : Except ActuatorError a.Answer)
    (st : MachineStatus) :
    List Write → Except ActuatorError a.Answer → Prop
  | discarded (ha : a.persists = false) : Settles a m r st [] r
  | unchanged (ha : a.persists = true) (hst : st = m.status) : Settles a m r st [] r
  | stored (ha : a.persists = true) (hst : st ≠ m.status) :
      Settles a m r st [(m.withStatus st, .ok ())] r
  | failed (ha : a.persists = true) (hst : st ≠ m.status) {e : ActuatorError} (hr : r = .error e)
      (w : StoreError) : Settles a m r st [(m.withStatus st, .error w)] (.error e)
  | unstored (ha : a.persists = true) (hst : st ≠ m.status) {x : a.Answer} (hr : r = .ok x)
      (w : StoreError) : Settles a m r st [(m.withStatus st, .error w)] (.error (.store m.name w))

namespace Settles

variable {a : Action} {m : Machine} {r r' : Except ActuatorError a.Answer} {st : MachineStatus}
  {written : List Write}

theorem same_machine (h : a.Settles m r st written r') :
    ∀ w ∈ written, w.1.metadata = m.metadata ∧ w.1.spec = m.spec := by
  intro w hw
  cases h with
  | discarded | unchanged => cases hw
  | stored | failed | unstored =>
    obtain rfl := List.mem_singleton.mp hw
    exact ⟨rfl, rfl⟩

theorem eq_nil (h : a.Settles m r st written r') (ha : a.persists = false) : written = [] := by
  cases h with
  | discarded | unchanged => rfl
  | stored ha' | failed ha' | unstored ha' =>
    rw [ha] at ha'
    cases ha'

end Settles

end Action

namespace Scope

variable {σ τ : Type}

/-- Closing the scope of a machine settles the action that worked on it. -/
theorem Closes.settles {a : Action} (ha : a.persists = true) {m : Machine} {project : String}
    {st : MachineStatus} {may : StoreError → Prop} {v w : World σ (List Write × τ)}
    {closed : Except ActuatorError Unit}
    (h : (Scope.withStatus ⟨m, m.status, project, false⟩ st).Closes may v w closed)
    (r : Except ActuatorError a.Answer) :
    ∃ written, a.Settles m r st written (Collaborators.firstFailure r closed) ∧
      w.storage.1 = v.storage.1 ++ written := by
  cases h with
  | clean h =>
    rw [Collaborators.firstFailure_ok]
    have hst : st = m.status := Decidable.not_not.mp (of_decide_eq_false h)
    exact ⟨[], .unchanged ha hst, (List.append_nil _).symm⟩
  | taken h =>
    rw [Collaborators.firstFailure_ok]
    exact ⟨_, .stored ha (of_decide_eq_true h), rfl⟩
  | @refused _ h w _ =>
    have hst : st ≠ m.status := of_decide_eq_true h
    cases r with
    | error e => exact ⟨_, .failed ha hst rfl w, rfl⟩
    | ok x => exact ⟨_, .unstored ha hst rfl w, rfl⟩

end Scope

namespace Collaborators

variable {σ τ : Type} {c : Collaborators σ τ} {s : Scope} {a : Action} {m : Machine}

/-- Only the writing of a status changes the journal. -/
theorem journaled_sustains (c : Collaborators σ τ) (s : Scope) (written : List Write) :
    c.journaled.Sustains s fun t => t.world.storage.1 = written := by
  have hcompute : ∀ {α : Type} (act : Timed σ α),
      Keeps (fun t : Timeline (World σ (List Write × τ)) => t.world.storage.1 = written)
        (World.onCompute act) :=
    fun act => keeps_within (P := fun w _ => w.storage.1 = written) (fun _ _ h => h) (fun _ h => h)
      fun _ _ h => h
  have hsecret : ∀ ns name, Keeps (fun t : Timeline (List Write × τ) => t.world.1 = written)
      (c.secrets.beside ns name) :=
    fun ns name => keeps_within (P := fun w _ => w.1 = written) (fun _ _ h => h) (fun _ h => h)
      fun _ _ h => h
  exact {
    lines := fun _ _ _ h => h
    zoning := hcompute _
    reading := hcompute _
    insertion := fun _ => hcompute _
    removal := hcompute _
    wait := fun _ => hcompute _
    secret :=
      fun name => keeps_within (P := fun _ u => u.world.1 = written) (fun _ => hsecret _ name)
      (fun _ h => h) fun _ _ h => h
    record := fun e => World.record_keeps (fun _ h => h) fun _ _ _ h => h }

theorem exec_perform (hacq : Scope.acquire c.defaultProject m = .ok s) (t : Timeline (World σ τ)) :
    exec (c.perform a m) t = exec (c.performOn a s) (a.announced m t) := by
  unfold perform
  rw [hacq]
  exact exec_bind_of_ok (exec_log ..)

/-- What the work on the machine tells is answered, by an action that writes nothing. -/
theorem perform_ends_of_discards (ha : a.persists = false)
    (hacq : Scope.acquire c.defaultProject m = .ok s) {t : Timeline (World σ τ)}
    {stop : Halt → Timeline (World σ τ) → Prop} {P : Except ActuatorError a.Answer × Scope → Prop}
    (h : Ends stop (c.reconcile s a) (a.announced m t) fun x _ => P x) :
    Ends stop (c.perform a m) t fun y _ => ∃ x, P x ∧ y = ⟨x.1, x.2.machine⟩ := by
  refine Ends.of_exec ?_ (exec_perform hacq t)
  rw [performOn_eq]
  refine ends_bind h fun x u hx => ?_
  obtain ⟨r, s'⟩ := x
  have hrelease : ∀ v, Ends stop (c.release a r s') v fun y _ =>
      ∃ x, P x ∧ y = ⟨x.1, x.2.machine⟩ := by
    intro v
    unfold release
    simp only [ha]
    exact ends_pure ⟨_, hx, rfl⟩
  cases r with
  | ok b => exact hrelease u
  | error e => exact ends_bind ends_log fun _ v _ => hrelease v

theorem exec_perform_of_error {e : MachineError}
    (hacq : Scope.acquire c.defaultProject m = .error e) (t : Timeline (World σ τ)) :
    exec (c.perform a m) t = (.ok ⟨.error (.machine e), m⟩, a.announced m t) := by
  unfold perform
  rw [hacq]
  exact exec_bind_of_ok (exec_log ..)

/-- Letting a machine go settles its action. -/
theorem release_ends {project : String} {may : StoreError → Prop} (hm : c.machines.Answers may)
    (r : Except ActuatorError a.Answer) (st : MachineStatus)
    (t : Timeline (World σ (List Write × τ))) :
    Ends never (c.journaled.release a r (Scope.withStatus ⟨m, m.status, project, false⟩ st)) t
      fun y u =>
        y.machine = m.withStatus st ∧ u.world.compute = t.world.compute ∧
          u.world.events = t.world.events ∧
          ∃ written, a.Settles m r st written y.result ∧
            u.world.storage.1 = t.world.storage.1 ++ written := by
  unfold release
  split
  next ha =>
    exact ends_bind (close_ends hm) fun closed u hu =>
      ends_pure ⟨rfl, hu.frame.1, hu.frame.2, hu.settles ha r⟩
  next ha =>
    exact ends_pure ⟨rfl, rfl, rfl, [], .discarded (Bool.eq_false_iff.mpr ha),
      (List.append_nil _).symm⟩

/-- Once the work is done, all that is left is to settle it. -/
theorem performOn_ends_of_run {project : String} {may : StoreError → Prop}
    (hm : c.machines.Answers may) {t v : Timeline (World σ (List Write × τ))}
    {r : Except ActuatorError a.Answer} {st : MachineStatus}
    (hrun : exec (c.journaled.reconcile ⟨m, m.status, project, false⟩ a) t =
      (.ok (r, Scope.withStatus ⟨m, m.status, project, false⟩ st), v)) :
    Ends never (c.journaled.performOn a ⟨m, m.status, project, false⟩) t fun y u =>
      y.machine = m.withStatus st ∧ u.world.compute = v.world.compute ∧
        u.world.events = v.world.events ∧
        ∃ written, a.Settles m r st written y.result ∧
          u.world.storage.1 = v.world.storage.1 ++ written := by
  rw [performOn_eq]
  refine ends_bind_of_exec hrun ?_
  cases r with
  | ok x => exact release_ends hm (.ok x) st v
  | error e =>
    refine ends_bind ends_log fun _ x ⟨_, hx⟩ => ?_
    rw [← hx]
    exact release_ends hm (.error e) st x

/-- All that an action writes and answers, when it can take its machine up. -/
theorem journaled_perform_ends (hs : c.service.Answers) (hk : c.secrets.Answers)
    (hm : c.machines.Answers fun _ => True) (hacq : Scope.acquire c.defaultProject m = .ok s)
    (t : Timeline (World σ (List Write × τ))) :
    Ends (fun e u => c.polling.Stops e u.now ∧ u.world.events = t.world.events ∧
        u.world.storage.1 = t.world.storage.1)
      (c.journaled.perform a m) t fun y u => ∃ r st v written,
      exec (c.journaled.reconcile s a) (a.announced m t) = (.ok (r, s.withStatus st), v) ∧
        y.machine = m.withStatus st ∧ a.Settles m r st written y.result ∧
        u.world.storage.1 = t.world.storage.1 ++ written ∧
        u.world.compute = v.world.compute ∧ u.world.events = v.world.events ∧
        (∀ w ∈ written, w.1.metadata = m.metadata ∧ w.1.spec = m.spec) ∧
        (a.persists = false → written = [] ∧ u.world.events = t.world.events) := by
  -- The work on the machine writes nothing itself.
  have hjournal : ∀ x v, exec (c.journaled.reconcile s a) (a.announced m t) = (x, v) →
      v.world.storage.1 = t.world.storage.1 := by
    intro x v hrun
    have hkept := reconcile_keeps (c.journaled_sustains s t.world.storage.1) hs
      (Scope.isDirty_of_acquire hacq) a (a.announced m t) rfl
    rwa [hrun] at hkept
  have hperform := exec_perform (c := c.journaled) (a := a) hacq t
  cases reconcile_ends (c := c.journaled) (s := s) hs hk.beside a (t := a.announced m t) with
  | @halts e v hrun hstop =>
    have hon : exec (c.journaled.performOn a s) (a.announced m t) = (.error e, v) := by
      rw [performOn_eq]
      exact exec_bind_of_error hrun
    exact .halts (hperform.trans hon) ⟨hstop.1, hstop.2, hjournal _ v hrun⟩
  | @answers x v hrun hx =>
    obtain ⟨r, s'⟩ := x
    obtain ⟨⟨st, rfl⟩, hevents⟩ := hx
    obtain ⟨_, rfl⟩ := Scope.acquire_eq_ok.mp hacq
    obtain ⟨y, u, hu, hmachine, hcompute, hev, written, hsettles, hwritten⟩ :=
      (performOn_ends_of_run hm hrun).returns
    rw [hjournal _ v hrun] at hwritten
    refine .answers (hperform.trans hu)
      ⟨r, st, v, written, hrun, hmachine, hsettles, hwritten, hcompute, hev,
        hsettles.same_machine, fun ha => ?_⟩
    exact ⟨hsettles.eq_nil ha, hev.trans (hevents ha).2⟩

/-- No part of these collaborators warns of scopes. -/
def Discreet (c : Collaborators σ τ) : Prop := ∀ n, c.Respect fun _ ls => Log.scopeWarnings ls = n

/-- An action that finds no project for its machine does nothing at all. Any other one lets its
machine go as its work came out, and answers so: the status is written once if it has changed, and
only when an instance is made or updated; looking for an instance and removing it record no event
either. However an action ends, its machine was let go by then or has the status it had: none is
told of as left behind. -/
theorem perform_persistence (hs : c.service.Answers) (hk : c.secrets.Answers)
    (hm : c.machines.Answers fun _ => True) (hd : c.Discreet) (a : Action) (m : Machine)
    (t : Timeline (World (List Exchange × σ) (List Write × τ))) :
    Log.scopeWarnings (exec (c.traced.journaled.perform a m) t).2.log = Log.scopeWarnings t.log ∧
      (∀ e, Scope.acquire c.defaultProject m = .error e →
        Ends never (c.traced.journaled.perform a m) t fun y u =>
          y = ⟨.error (.machine e), m⟩ ∧ u.world = t.world) ∧
      ∀ s, Scope.acquire c.defaultProject m = .ok s →
        Ends (fun e u => c.polling.Stops e u.now ∧ u.world.events = t.world.events ∧
            u.world.storage.1 = t.world.storage.1)
          (c.traced.journaled.perform a m) t fun y u => ∃ r st v written,
          exec (c.traced.journaled.reconcile s a) (a.announced m t) =
            (.ok (r, s.withStatus st), v) ∧
            y.machine = m.withStatus st ∧ a.Settles m r st written y.result ∧
            u.world.storage.1 = t.world.storage.1 ++ written ∧
            u.world.compute = v.world.compute ∧ u.world.events = v.world.events ∧
            (∀ w ∈ written, w.1.metadata = m.metadata ∧ w.1.spec = m.spec) ∧
            (a.persists = false → written = [] ∧ u.world.events = t.world.events) := by
  refine ⟨?_, fun e hacq => ?_, fun s hacq => ?_⟩
  · exact (hd _).traced.journaled.perform hs.traced hk.beside a m t rfl
  · exact .answers (exec_perform_of_error (c := c.traced.journaled) hacq t) ⟨rfl, rfl⟩
  · exact journaled_perform_ends (c := c.traced) hs.traced hk hm hacq t

theorem inMemory_discreet (polling : PollConfig) (defaultProject : Option String) :
    (inMemory polling defaultProject).Discreet := by
  intro n
  refine inMemory_respect (fun _ ls l hl hn => ?_) fun _ _ _ hn => hn
  rw [Log.scopeWarnings_push hl, hn]

theorem perform_persistence_inMemory :
    Mock.service.Answers ∧ (SecretStore.memory ∅ : SecretStore MachineTable).Answers ∧
      MachineStore.memory.Answers (fun _ => True) ∧ (inMemory default (some "lab")).Discreet ∧
      Scope.acquire (some "lab") .small = .ok .small ∧
      Log.scopeWarnings
        (exec ((inMemory default (some "lab")).traced.journaled.perform .create .small)
          (World.start ([], .new) ([], .empty))).2.log = 0 ∧
      Ends (fun e u => (default : PollConfig).Stops e u.now ∧ u.world.events = [] ∧
        u.world.storage.1 = [])
        ((inMemory default (some "lab")).traced.journaled.perform .create .small)
        (World.start ([], .new) ([], .empty)) fun y u => ∃ r st v written,
        exec ((inMemory default (some "lab")).traced.journaled.reconcile .small .create)
            (Action.create.announced .small (World.start ([], .new) ([], .empty))) =
          (.ok (r, Scope.small.withStatus st), v) ∧
          y.machine = Machine.small.withStatus st ∧
            Action.create.Settles .small r st written y.result ∧
          u.world.storage.1 = written ∧
          u.world.compute = v.world.compute ∧ u.world.events = v.world.events ∧
          (∀ w ∈ written, w.1.metadata = Machine.small.metadata ∧ w.1.spec = Machine.small.spec) ∧
          (Action.create.persists = false → written = [] ∧ u.world.events = []) := by
  have hm : MachineStore.memory.Answers fun _ => True := MachineStore.memory_answers
  have hk : (SecretStore.memory ∅ : SecretStore MachineTable).Answers :=
    SecretStore.memory_answers ∅
  have hd := inMemory_discreet default (some "lab")
  have hacq : Scope.acquire (some "lab") .small = .ok .small := rfl
  obtain ⟨hwarnings, _, hacquired⟩ :=
    perform_persistence (c := inMemory default (some "lab")) Mock.service_answers hk hm hd
      .create .small (World.start ([], .new) ([], .empty))
  exact ⟨Mock.service_answers, hk, hm, hd, hacq, hwarnings, hacquired .small hacq⟩

end Collaborators

end Provision
