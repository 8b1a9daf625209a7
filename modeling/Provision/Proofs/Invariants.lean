import Provision.Proofs.Deletion

/-!
Invariants of actions. What every call, look-up, log line and event for a machine keeps, a whole
action on the machine keeps, also where it halts.
-/
namespace Provision

namespace Timed

variable {ω σ α β : Type}

/-- What holds before the action holds after it, also when it halts. -/
def Keeps (I : Timeline ω → Prop) (act : Timed ω α) : Prop := ∀ t, I t → I (exec act t).2

section Rules

variable {I : Timeline ω → Prop} {act : Timed ω α}

theorem keeps_pure (a : α) : Keeps I (pure a : Timed ω α) := fun _ h => h

theorem keeps_halt (h : Halt) : Keeps I (halt h : Timed ω α) := fun _ ht => ht

theorem keeps_now : Keeps I (now : Timed ω Instant) := fun _ h => h

theorem keeps_sleep {d : Duration} (h : ∀ t, I t → I { t with now := wake t.now d }) :
    Keeps I (sleep d : Timed ω Unit) := by
  intro t ht
  have hwoken := h t ht
  simpa only [exec_sleep] using hwoken

theorem keeps_later (s : Instant) (d : Duration) : Keeps I (later s d : Timed ω Instant) := by
  unfold later
  split
  · exact keeps_pure _
  · exact keeps_halt _

/-- The rest need be looked at for the answers only that the action can give. -/
theorem keeps_bind_of_run {f : α → Timed ω β} (h : Keeps I act)
    (hf : ∀ t a u, exec act t = (.ok a, u) → Keeps I (f a)) : Keeps I (act >>= f) := by
  intro t ht
  have hu := h t ht
  rcases hrun : exec act t with ⟨e | a, u⟩
  · rw [hrun] at hu
    rw [exec_bind_of_error hrun]
    exact hu
  · rw [hrun] at hu
    rw [exec_bind_of_ok hrun]
    exact hf t a u hrun u hu

theorem keeps_bind {f : α → Timed ω β} (h : Keeps I act) (hf : ∀ a, Keeps I (f a)) :
    Keeps I (act >>= f) :=
  keeps_bind_of_run h fun _ a _ _ => hf a

/-- What never halts is never cleaned up after. -/
theorem keeps_unwinding_of_never {cleanup : Timed ω Unit} (h : Keeps I act)
    (hn : ∀ t, Ends never act t fun _ _ => True) : Keeps I (unwinding cleanup act) := by
  intro t ht
  obtain ⟨a, u, hrun, _⟩ := (hn t).returns
  have hu := h t ht
  rw [hrun] at hu
  rw [exec_unwinding_of_ok hrun]
  exact hu

/-- An action on a part of the world keeps what it keeps on that part alone. -/
theorem keeps_within {get : ω → σ} {set : σ → ω → ω} {act : Timed σ α} {P : ω → Timeline σ → Prop}
    (hpart : ∀ w, Keeps (P w) act) (hbefore : ∀ t, I t → P t.world ⟨t.now, t.log, get t.world⟩)
    (hafter : ∀ w u, P w u → I ⟨u.now, u.log, set u.world w⟩) : Keeps I (within get set act) := by
  intro t ht
  have hu := hpart t.world _ (hbefore t ht)
  rcases hrun : exec act ⟨t.now, t.log, get t.world⟩ with ⟨r, u⟩
  rw [hrun] at hu
  rw [exec_within hrun]
  exact hafter t.world u hu

theorem keeps_logAll (ls : List Log.Line)
    (h : ∀ l ∈ ls, Keeps I (log l.level l.source l.message l.fields)) :
    Keeps I (do for l in ls do log l.level l.source l.message l.fields) := by
  induction ls with
  | nil => exact keeps_pure _
  | cons l ls ih =>
    simp only [List.forIn_cons, bind_assoc]
    refine keeps_bind (h l List.mem_cons_self) fun _ => ?_
    simp only [pure_bind]
    exact ih fun l' hl' => h l' (List.mem_cons_of_mem l hl')

end Rules

/-- The log lines that an invariant must bear: all but warnings about a scope. -/
def KeepsLines (I : Timeline ω → Prop) : Prop :=
  ∀ l : Log.Line, (l.level = .warn → l.source ≠ .scope) →
    Keeps I (log l.level l.source l.message l.fields)

theorem KeepsLines.log {I : Timeline ω → Prop} (h : KeepsLines I) {level : Log.Level}
    {source : Log.Source} {message : String} {fields : List (String × Log.Value)}
    (hl : level = .warn → source ≠ .scope) :
    Keeps I (Timed.log level source message fields) := h ⟨level, source, message, fields⟩ hl

end Timed

open Timed

section Polling

variable {σ α ε : Type} {I : Timeline σ → Prop}

theorem pollFrom_keeps {c : PollConfig} {check : Timed σ (Except ε (Progress α))}
    (hcheck : Keeps I check) (hlines : KeepsLines I) (hsleep : Keeps I (sleep c.interval))
    (started deadline : Instant) (fuel attempts : Nat) :
    Keeps I (pollFrom c check started deadline fuel attempts) := by
  induction fuel generalizing attempts with
  | zero => exact keeps_halt _
  | succ fuel ih =>
    unfold pollFrom
    refine keeps_bind hcheck fun r => ?_
    cases r with
    | error e => exact keeps_pure _
    | ok p =>
      cases p with
      | done a => exact keeps_pure _
      | pending a =>
        refine keeps_bind keeps_now fun now => keeps_bind (keeps_later _ _) fun next => ?_
        have hline : Log.Level.trace = .warn → Log.Source.polling ≠ .scope := by
          intro h
          cases h
        split
        · exact keeps_pure _
        · exact keeps_bind (hlines.log hline) fun _ => keeps_bind hsleep fun _ => ih _

theorem Service.wait_keeps {s : Service σ} {c : PollConfig} {project zone operation : String}
    (hcall : Keeps I (s (.getOperation project zone operation))) (hlines : KeepsLines I)
    (hsleep : Keeps I (sleep c.interval)) : Keeps I (s.wait c project zone operation) := by
  have hcheck : Keeps I (s.check project zone operation) := by
    unfold check
    refine keeps_bind hcall fun r => ?_
    cases r with
    | error e => exact keeps_pure _
    | ok o => exact keeps_bind (hlines.log nofun) fun _ => keeps_pure _
  unfold wait poll
  refine keeps_bind (hlines.log nofun) fun _ => keeps_bind ?_ fun y => ?_
  · exact keeps_bind keeps_now fun _ => keeps_bind (keeps_later _ _) fun _ =>
      pollFrom_keeps hcheck hlines hsleep _ _ _ _
  · match y with
    | .error (.aborted e) => exact keeps_pure _
    | .error (.timeout elapsed attempts last) => exact keeps_pure _
    | .ok (o, attempts) =>
      dsimp only
      split
      · exact keeps_bind (hlines.log nofun) fun _ => keeps_pure _
      · exact keeps_pure _

end Polling

namespace Scope

variable (s : Scope)

theorem read_eq_withStatus (r : Except ComputeError Instance) :
    ∃ st, s.read r = s.withStatus st := by
  unfold read
  cases seen? r with
  | none => exact ⟨s.status, rfl⟩
  | some o => exact ⟨_, rfl⟩

theorem settled_eq_withStatus (result : Except ActuatorError Unit) :
    ∃ st, s.settled result = s.withStatus st := by
  cases result with
  | error e => exact ⟨s.status, rfl⟩
  | ok _ => exact ⟨_, rfl⟩

theorem surfaced_eq_withStatus (result : Except ActuatorError Unit) :
    ∃ st, s.surfaced result = s.withStatus st := by
  match result with
  | .ok () => exact ⟨s.status, rfl⟩
  | .error (.machine e) => exact ⟨_, rfl⟩
  | .error (.notFound ..) | .error (.provider ..) | .error (.operationTimeout ..)
  | .error (.operationFailed ..) | .error (.unexpectedInstance ..) | .error (.store ..) =>
    exact ⟨s.status, rfl⟩

theorem concluded_eq_withStatus (result : Except ActuatorError Unit)
    (r : Except ComputeError Instance) :
    ∃ st, s.concluded result r = s.withStatus st := by
  unfold concluded
  obtain ⟨st, hst⟩ := s.surfaced_eq_withStatus result
  obtain ⟨st', hst'⟩ := (s.withStatus st).read_eq_withStatus r
  rw [hst, hst']
  exact (s.withStatus st').settled_eq_withStatus result

end Scope

theorem World.record_keeps {σ τ : Type} {I : Timeline (World σ τ) → Prop} {r : Recorder} {e : Event}
    (hupdate : Keeps I (update fun w => ((), { w with events := w.events ++ [e] })))
    (hlines : ∀ l ∈ r e, Keeps I (log l.level l.source l.message l.fields)) :
    Keeps I (World.record r e) := by
  unfold World.record
  exact keeps_bind hupdate fun _ => keeps_logAll _ hlines

/-- The service in memory keeps what its lines and its reply keep. -/
theorem Mock.service_keeps {I : Timeline Mock → Prop} {q : Call} (hlines : KeepsLines I)
    (hreply : Keeps I (update fun m => m.reply q)) : Keeps I (service q) := by
  have hnote : ∀ message project zone name, Keeps I (note message project zone name) :=
    fun _ _ _ _ => hlines.log nofun
  unfold service
  refine keeps_bind hreply fun r => ?_
  cases q with
  | insertInstance project zone i =>
    cases r with
    | error e => exact keeps_pure _
    | ok o => exact keeps_bind (hnote _ _ _ _) fun _ => keeps_pure _
  | deleteInstance project zone name =>
    cases r with
    | error e => exact keeps_pure _
    | ok o => exact keeps_bind (hnote _ _ _ _) fun _ => keeps_pure _
  | getInstance project zone name => exact keeps_pure _
  | getZone project zone => exact keeps_pure _
  | getOperation project zone operation => exact keeps_pure _

namespace Collaborators

variable {σ τ : Type} {c : Collaborators σ τ} {s : Scope} {I : Timeline (World σ τ) → Prop}

/-- Working on a machine changes nothing of its scope but the status. Looking for an instance and
removing it change neither that nor the events. -/
theorem reconcile_ends (hs : c.service.Answers) (hk : c.secrets.Answers) (a : Action)
    {t : Timeline (World σ τ)} :
    Ends (fun e u => c.polling.Stops e u.now ∧ u.world.events = t.world.events) (c.reconcile s a) t
      fun x u => (∃ st, x.2 = s.withStatus st) ∧
        (a.persists = false → x.2 = s ∧ u.world.events = t.world.events) := by
  match a with
  | .create =>
    refine (create_ends hs hk).mono (fun e u hstop => ⟨hstop.1, hstop.2.1⟩) ?_
    rintro x u ⟨_, r, _, _, hx, _⟩
    rw [hx]
    exact ⟨s.concluded_eq_withStatus x.1 r, nofun⟩
  | .update =>
    refine (reconcile_update_ends hs).of_never.weaken ?_
    rintro _ u ⟨r, _, _, rfl⟩
    obtain ⟨st, hst⟩ := s.read_eq_withStatus r
    refine ⟨?_, nofun⟩
    dsimp only
    rw [hst]
    exact (s.withStatus st).settled_eq_withStatus _
  | .exists =>
    refine ends_bind (Scope.holding_ends_of_never (instanceExists_ends hs)) ?_
    rintro x u ⟨_, _, _, _, he⟩
    refine ends_pure ?_
    exact ⟨⟨s.status, rfl⟩, fun _ => ⟨rfl, he⟩⟩
  | .delete =>
    refine (reconcile_delete_ends hs).mono (fun e u hstop => ⟨hstop.1, hstop.2.1.2⟩) ?_
    rintro x u ⟨hx, _, _, _, _, he⟩
    exact ⟨⟨s.status, hx⟩, fun _ => ⟨hx, he⟩⟩

/-- All that may be done for a machine keeps the invariant, but for the writing of its status. -/
structure Sustains (c : Collaborators σ τ) (s : Scope) (I : Timeline (World σ τ) → Prop) :
    Prop where
  lines : KeepsLines I
  zoning : Keeps I (c.call s.zoning)
  reading : Keeps I (c.call s.reading)
  insertion : ∀ data, Keeps I (c.call (s.insertion data))
  removal : Keeps I (c.call s.removal)
  wait : ∀ operation, Keeps I (c.wait s.project s.zone operation)
  secret : ∀ name, Keeps I (c.secret s.machine.ns name)
  record : ∀ e, Keeps I (World.record c.recorder e)

section Reconcile

variable (h : c.Sustains s I)

include h

theorem refresh_keeps : Keeps I (c.refresh s) := by
  unfold refresh
  refine keeps_bind h.reading fun r => ?_
  cases r with
  | error e => exact keeps_pure _
  | ok i =>
    dsimp only
    split
    · exact keeps_pure _
    · exact keeps_bind (h.lines.log nofun) fun _ => keeps_pure _

theorem userData_keeps : Keeps I (c.userData s) := by
  unfold userData
  split
  · exact keeps_pure _
  · refine keeps_bind (h.secret _) fun r => ?_
    split
    · exact keeps_pure _
    · split <;> exact keeps_pure _

theorem attempt_keeps : Keeps I (c.attempt s) := by
  unfold attempt
  split
  · exact keeps_pure _
  · unfold insertAndWait
    refine keeps_bind (userData_keeps h) fun boot => ?_
    cases boot with
    | error e => exact keeps_pure _
    | ok data =>
      refine keeps_bind (h.lines.log nofun) fun _ => keeps_bind (h.insertion data) fun r => ?_
      cases r with
      | error e => exact keeps_pure _
      | ok o =>
        refine keeps_bind (h.wait o.name) fun x => ?_
        cases x with
        | error e => exact keeps_pure _
        | ok _ => exact keeps_bind (h.lines.log nofun) fun _ => keeps_pure _

theorem conclude_keeps (hs : c.service.Answers) (result : Except ActuatorError Unit) :
    Keeps I (c.conclude result s) := by
  have hfinish : ∀ s', Keeps I (c.finish result s') := by
    intro s'
    match result with
    | .error e => exact keeps_pure _
    | .ok () => exact keeps_bind (h.record _) fun _ => keeps_pure _
  have hrefresh : Keeps I (s.holding (c.refresh s)) :=
    keeps_unwinding_of_never (refresh_keeps h) fun t => (refresh_ends hs).weaken
      fun _ _ _ => trivial
  unfold conclude
  refine keeps_bind hrefresh fun x => ?_
  obtain ⟨refreshed, s'⟩ := x
  cases refreshed with
  | error e => exact keeps_bind (h.lines.log nofun) fun _ => hfinish s'
  | ok _ => exact hfinish s'

/-- Only a status that has changed is told of where the work halts, and while it has, the work does
not. -/
theorem create_keeps (hs : c.service.Answers) (hclean : s.isDirty = false) :
    Keeps I (c.create s) := by
  rw [create_eq, Scope.holding_of_clean hclean]
  refine keeps_bind (attempt_keeps h) fun result => ?_
  match result with
  | .ok () => exact conclude_keeps h hs _
  | .error (.machine e) =>
    change Keeps I (c.surface s e >>= c.conclude (.error (.machine e)))
    unfold surface
    simp only [bind_assoc, pure_bind]
    -- Nothing that is asked for afterwards depends on the status.
    have h' : c.Sustains (s.recordError e) I :=
      ⟨h.lines, h.zoning, h.reading, h.insertion, h.removal, h.wait, h.secret, h.record⟩
    exact keeps_bind (h.lines.log nofun) fun _ => keeps_bind (h.record _) fun _ =>
      conclude_keeps h' hs _
  | .error (.notFound ..) | .error (.provider ..) | .error (.operationTimeout ..)
  | .error (.operationFailed ..)
  | .error (.unexpectedInstance ..) | .error (.store ..) => exact conclude_keeps h hs _

theorem update_keeps : Keeps I (c.update s) := by
  unfold update
  refine keeps_bind (refresh_keeps h) fun x => ?_
  obtain ⟨refreshed, s'⟩ := x
  cases refreshed <;> exact keeps_pure _

theorem instanceExists_keeps : Keeps I (c.instanceExists s) := by
  unfold instanceExists
  split
  · exact keeps_pure _
  · refine keeps_bind h.zoning fun r => ?_
    cases r with
    | error e => exact keeps_pure _
    | ok z =>
      refine keeps_bind h.reading fun r' => ?_
      cases r' with
      | ok i => exact keeps_bind (h.lines.log nofun) fun _ => keeps_pure _
      | error e =>
        dsimp only
        split
        · exact keeps_bind (h.lines.log nofun) fun _ => keeps_pure _
        · exact keeps_pure _

theorem delete_keeps : Keeps I (c.delete s) := by
  unfold delete
  refine keeps_bind (instanceExists_keeps h) fun found => ?_
  match found with
  | .error e => exact keeps_pure _
  | .ok false => exact keeps_bind (h.lines.log nofun) fun _ => keeps_pure _
  | .ok true =>
    refine keeps_bind (h.lines.log nofun) fun _ => keeps_bind h.removal fun r => ?_
    match r with
    | .error e =>
      dsimp only
      split
      · exact keeps_bind (h.lines.log nofun) fun _ => keeps_pure _
      · exact keeps_pure _
    | .ok o =>
      refine keeps_bind (h.wait o.name) fun x => ?_
      cases x with
      | error e => exact keeps_pure _
      | ok _ => exact keeps_bind (h.lines.log nofun) fun _ => keeps_pure _

/-- Working on a machine keeps what all that may be done for it keeps. -/
theorem reconcile_keeps (hs : c.service.Answers) (hclean : s.isDirty = false) (a : Action) :
    Keeps I (c.reconcile s a) := by
  match a with
  | .create => exact create_keeps h hs hclean
  | .update =>
    simp only [reconcile, Scope.holding_of_clean hclean]
    exact update_keeps h
  | .exists =>
    simp only [reconcile, Scope.holding_of_clean hclean]
    exact keeps_bind (instanceExists_keeps h) fun _ => keeps_pure _
  | .delete =>
    simp only [reconcile, Scope.holding_of_clean hclean]
    exact keeps_bind (delete_keeps h) fun _ => keeps_pure _

theorem close_keeps {st : MachineStatus}
    (hwrite : Keeps I (World.onStorage (c.machines (s.machine.withStatus st)))) :
    Keeps I (c.close (s.withStatus st)) := by
  rw [close_eq]
  unfold persist
  split
  · refine keeps_bind hwrite fun r => ?_
    cases r with
    | error e => exact keeps_pure _
    | ok _ => exact keeps_bind (h.lines.log nofun) fun _ => keeps_pure _
  · exact keeps_bind (h.lines.log nofun) fun _ => keeps_pure _

theorem release_keeps (a : Action) (r : Except ActuatorError a.Answer) {st : MachineStatus}
    (hwrite : Keeps I (World.onStorage (c.machines (s.machine.withStatus st)))) :
    Keeps I (c.release a r (s.withStatus st)) := by
  unfold release
  split
  · exact keeps_bind (close_keeps h hwrite) fun _ => keeps_pure _
  · exact keeps_pure _

/-- Doing an action on a machine keeps the same when writing its status does. -/
theorem performOn_keeps (hs : c.service.Answers) (hk : c.secrets.Answers)
    (hclean : s.isDirty = false)
    (hwrite : ∀ st, Keeps I (World.onStorage (c.machines (s.machine.withStatus st)))) (a : Action) :
    Keeps I (c.performOn a s) := by
  rw [performOn_eq]
  refine keeps_bind_of_run (reconcile_keeps h hs hclean a) fun t x u hx => ?_
  obtain ⟨r, s'⟩ := x
  obtain ⟨st, rfl⟩ : ∃ st, s' = s.withStatus st := ((reconcile_ends hs hk a).of_run hx).1
  have hrelease := release_keeps h a r (hwrite st)
  cases r with
  | ok _ => exact hrelease
  | error e => exact keeps_bind (h.lines.log nofun) fun _ => hrelease

end Reconcile

theorem perform_keeps (hs : c.service.Answers) (hk : c.secrets.Answers)
    (hlines : KeepsLines I) {m : Machine}
    (h : ∀ s, Scope.acquire c.defaultProject m = .ok s → c.Sustains s I)
    (hwrite : ∀ st, Keeps I (World.onStorage (c.machines (m.withStatus st)))) (a : Action) :
    Keeps I (c.perform a m) := by
  unfold perform
  refine keeps_bind (hlines.log nofun) fun _ => ?_
  split
  next => exact keeps_pure _
  next s hacq =>
    obtain rfl := Scope.machine_of_acquire hacq
    exact performOn_keeps (h s hacq) hs hk (Scope.isDirty_of_acquire hacq) hwrite a

end Collaborators

section Aside

variable {ω σ τ α : Type} {J : Instant → Array Log.Line → Prop}

/-- The invariant that is about the clock and the log alone. -/
def Aside (J : Instant → Array Log.Line → Prop) (t : Timeline ω) : Prop := J t.now t.log

theorem keeps_aside_within {get : ω → σ} {set : σ → ω → ω} {act : Timed σ α}
    (h : Keeps (Aside J) act) :
    Keeps (Aside J) (within get set act) :=
  keeps_within (P := fun _ => Aside J) (fun _ => h) (fun _ ht => ht) fun _ _ hu => hu

theorem keeps_aside_update (f : ω → α × ω) : Keeps (Aside J) (update f) := fun _ h => h

/-- The lines and the sleeps of any action, and the parts of these collaborators, keep it. -/
structure Collaborators.Respect (c : Collaborators σ τ) (J : Instant → Array Log.Line → Prop) :
    Prop where
  line : ∀ n ls (l : Log.Line), (l.level = .warn → l.source ≠ .scope) → J n ls → J n (ls.push l)
  sleep : ∀ n ls d, J n ls → J (wake n d) ls
  service : ∀ q, Keeps (Aside J) (c.service q)
  secrets : ∀ ns name, Keeps (Aside J) (c.secrets ns name)
  machines : ∀ m, Keeps (Aside J) (c.machines m)
  recorder : ∀ e, ∀ l ∈ c.recorder e, l.level = .warn → l.source ≠ .scope

namespace Collaborators.Respect

variable {c : Collaborators σ τ}

theorem lines (h : c.Respect J) : KeepsLines (Aside J : Timeline ω → Prop) :=
  fun l hl t ht => h.line t.now t.log l hl ht

theorem record (h : c.Respect J) (e : Event) :
    Keeps (Aside J) (World.record c.recorder e : Timed (World σ τ) Unit) :=
  World.record_keeps (keeps_aside_update _) fun l hl => h.lines l (h.recorder e l hl)

theorem sustains (h : c.Respect J) (s : Scope) : c.Sustains s (Aside J) where
  lines := h.lines
  zoning := keeps_aside_within (h.service _)
  reading := keeps_aside_within (h.service _)
  insertion _ := keeps_aside_within (h.service _)
  removal := keeps_aside_within (h.service _)
  wait _ := keeps_aside_within (Service.wait_keeps (h.service _) h.lines
    (keeps_sleep fun t ht => h.sleep t.now t.log _ ht))
  secret _ := keeps_aside_within (h.secrets _ _)
  record := h.record

/-- What the parts keep of the clock and of the log, every action keeps. -/
theorem perform (h : c.Respect J) (hs : c.service.Answers) (hk : c.secrets.Answers)
    (a : Action) (m : Machine) :
    Keeps (Aside J) (c.perform a m) :=
  perform_keeps hs hk h.lines (fun s _ => h.sustains s)
    (fun _ => keeps_aside_within (h.machines _)) a

theorem journaled (h : c.Respect J) : c.journaled.Respect J where
  line := h.line
  sleep := h.sleep
  service := h.service
  secrets _ _ := keeps_aside_within (h.secrets _ _)
  machines _ := keeps_bind (keeps_aside_within (h.machines _)) fun _ => keeps_aside_update _
  recorder := h.recorder

theorem traced (h : c.Respect J) : c.traced.Respect J where
  line := h.line
  sleep := h.sleep
  service _ := keeps_bind (keeps_aside_within (h.service _)) fun _ => keeps_aside_update _
  secrets := h.secrets
  machines := h.machines
  recorder := h.recorder

end Collaborators.Respect

theorem MachineStore.memory_keeps_aside (m : Machine) : Keeps (Aside J) (memory m) := by
  unfold memory
  exact keeps_aside_update _

/-- With all in memory, only the lines and the sleeps matter. -/
theorem Collaborators.inMemory_respect {polling : PollConfig} {defaultProject : Option String}
    (hline : ∀ n ls (l : Log.Line), (l.level = .warn → l.source ≠ .scope) →
      J n ls → J n (ls.push l))
    (hsleep : ∀ n ls d, J n ls → J (wake n d) ls) :
    (inMemory polling defaultProject).Respect J where
  line := hline
  sleep := hsleep
  service _ :=
    Mock.service_keeps (fun l hl t ht => hline t.now t.log l hl ht) (keeps_aside_update _)
  secrets _ _ := keeps_pure _
  machines m := MachineStore.memory_keeps_aside m
  recorder _ _ hl := by cases hl

end Aside

end Provision
