import Provision.Config
import Provision.Proofs.OnMock
import Provision.Proofs.Persistence

/-!
Room on the clock. Polling looks one timeout and one interval ahead, so it may come to instants that
the clock cannot hold. It does not where these are near enough; and with a configuration that was
loaded it then ends, unless the timeout has room for more checks than can be counted.
-/
namespace Provision

open Timed

namespace Timed

variable {ω σ α β : Type}

/-- Halting because no further check can be counted. -/
def outOfAttempts : Halt → Timeline ω → Prop := fun e _ => e = .attempts

/-- The action answers, and no later than so many nanoseconds after it began. -/
def Prompt (n : Nat) (act : Timed ω α) : Prop :=
  ∀ t, Ends never act t fun _ u => t.now.nanos ≤ u.now.nanos ∧ u.now.nanos ≤ t.now.nanos + n

section Prompt

variable {n k : Nat} {act : Timed ω α}

theorem prompt_pure (n : Nat) (a : α) : Prompt n (pure a : Timed ω α) :=
  fun _ => ends_pure ⟨Nat.le_refl _, Nat.le_add_right _ _⟩

theorem prompt_log (l : Log.Level) (s : Log.Source) (m : String) (fs : List (String × Log.Value)) :
    Prompt 0 (log l s m fs : Timed ω Unit) := by
  intro t
  refine ends_log.weaken fun _ u hu => ?_
  rw [hu.1]
  exact ⟨Nat.le_refl _, Nat.le_refl _⟩

theorem Prompt.bind {f : α → Timed ω β} (h : Prompt n act) (hf : ∀ a, Prompt k (f a)) :
    Prompt (n + k) (act >>= f) := by
  intro t
  refine ends_bind (h t) fun a u hu => (hf a u).weaken fun _ v hv => ?_
  omega

/-- Log lines take no time. -/
theorem Prompt.logged {l : Log.Level} {s : Log.Source} {m : String} {fs : List (String × Log.Value)}
    {f : Unit → Timed ω β} (hf : ∀ a, Prompt n (f a)) : Prompt n (log l s m fs >>= f) := by
  have h := (prompt_log l s m fs).bind hf
  rwa [Nat.zero_add] at h

theorem Prompt.now_eq (h : Prompt 0 act) {t u : Timeline ω} {a : α}
    (run : exec act t = (.ok a, u)) : u.now = t.now := by
  obtain ⟨hafter, hbefore⟩ := (h t).of_run run
  exact congrArg Instant.mk (Nat.le_antisymm hbefore hafter)

theorem Prompt.within {get : ω → σ} {set : σ → ω → ω} {act : Timed σ α} (h : Prompt n act) :
    Prompt n (within get set act) := by
  intro t
  refine (ends_within (h _)).weaken fun _ u ⟨v, hv, hu, _⟩ => ?_
  rw [hu]
  exact hv

end Prompt

end Timed

theorem Mock.service_prompt (q : Call) : Prompt 0 (service q) := by
  intro t
  refine (service_ends q).weaken fun _ u hu => ?_
  rw [hu.1]
  exact ⟨Nat.le_refl _, Nat.le_refl _⟩

namespace PollConfig

/-- How far polling looks ahead of its beginning, checks apart: to the deadline, or to the end of
the first interval, or, from the latest wait before the deadline, to the end of another interval. -/
def reach (c : PollConfig) : Nat := max c.interval.nanos (c.timeout.nanos + c.pace + 999999)

end PollConfig

section Poll

variable {ω α ε : Type} {c : PollConfig} {check : Timed ω (Except ε (Progress α))} {d limit : Nat}

/-- With one interval left up to a limit that the clock holds, also after another check, polling
goes on. -/
theorem pollFrom_in_room (hcheck : Prompt d check) (started : Instant) {deadline : Instant}
    (hdeadline : deadline.nanos + c.pace + 999999 ≤ limit) (hlimit : limit + d < Instant.bound)
    (fuel attempts : Nat) {t : Timeline ω} (hnow : t.now.nanos + c.interval.nanos ≤ limit) :
    Ends outOfAttempts (pollFrom c check started deadline fuel attempts) t fun _ _ => True := by
  induction fuel generalizing attempts t with
  | zero => exact .halts (exec_halt .attempts t) rfl
  | succ fuel ih =>
    refine pollFrom_ends_of_round (hcheck t) (fun _ _ _ => trivial) (fun _ _ _ => trivial) ?_
      (fun _ _ _ _ => trivial) ?_
    · rintro a u ⟨_, hu⟩ hlate
      omega
    · rintro a u v ⟨_, hu⟩ hroom hv _
      have hwake := wake_le_nanos_add_min u.now c.interval
      refine ih (attempts + 1) ?_
      rw [hv]
      unfold PollConfig.pace at hdeadline
      omega

theorem poll_in_room (hcheck : Prompt d check) {t : Timeline ω}
    (hroom : t.now.nanos + c.reach + d < Instant.bound) :
    Ends outOfAttempts (poll c check) t fun _ _ => True := by
  have hinterval : c.interval.nanos ≤ c.reach := Nat.le_max_left _ _
  have htimeout : c.timeout.nanos + c.pace + 999999 ≤ c.reach := Nat.le_max_right _ _
  have hdeadline : (t.now.after c.timeout).nanos + c.pace + 999999 ≤ t.now.nanos + c.reach := by
    rw [Instant.nanos_after]
    omega
  refine poll_ends_of_rounds (fun hlate => ?_) fun _ => ?_
  · omega
  · exact pollFrom_in_room hcheck t.now hdeadline hroom _ 0 (by omega)

end Poll

namespace Config

variable {lookup : String → Option String} {cfg : Config}

theorem seconds_eq_ofSeconds {key : String} {n : Nat} {d : Duration}
    (h : seconds lookup key (.ofSeconds n) = .ok d) : ∃ k, d = .ofSeconds k := by
  unfold seconds at h
  split at h
  · exact ⟨n, (Except.ok.inj h).symm⟩
  · split at h
    next k _ => exact ⟨k, (Except.ok.inj h).symm⟩
    next => cases h

/-- Checks are a second apart at least. -/
theorem pace_of_load (h : load lookup = .ok cfg) : nanosPerSecond ≤ cfg.polling.pace := by
  simp only [load, bind, Except.bind] at h
  split at h
  · cases h
  next interval hinterval =>
    split at h
    · cases h
    · split at h
      · cases h
      next hpositive =>
        split at h
        · cases h
        · obtain ⟨k, rfl⟩ := seconds_eq_ofSeconds hinterval
          obtain rfl := Except.ok.inj h
          have hk : 0 < k := by
            refine Nat.pos_of_ne_zero ?_
            rintro rfl
            exact hpositive rfl
          have hlongest : nanosPerSecond ≤ longestSleep.nanos := by decide
          exact Nat.le_min.mpr ⟨Nat.le_mul_of_pos_left _ hk, hlongest⟩

end Config

namespace Service

variable {σ : Type} {s : Service σ} {c : PollConfig} {d : Nat} {project zone operation : String}

theorem check_prompt (hs : ∀ q, Prompt d (s q)) : Prompt d (s.check project zone operation) := by
  unfold check
  refine Prompt.bind (k := 0) (hs _) fun r => ?_
  split
  · exact prompt_pure 0 _
  · exact .logged fun _ => prompt_pure 0 _

theorem wait_in_room (hs : ∀ q, Prompt d (s q)) {t : Timeline σ}
    (hroom : t.now.nanos + c.reach + d < Instant.bound) :
    Ends outOfAttempts (s.wait c project zone operation) t fun _ _ => True := by
  have hpoll : ∀ v : Timeline σ, v.now = t.now → v.world = t.world →
      Ends outOfAttempts (poll c (s.check project zone operation)) v fun _ _ => True := by
    intro v hv _
    rw [← hv] at hroom
    exact poll_in_room (check_prompt hs) hroom
  exact (wait_ends_of_poll hpoll).weaken fun _ _ _ => trivial

end Service

namespace Collaborators

variable {σ τ : Type} {c : Collaborators σ τ} {d : Nat} {s : Scope}

/-- Each call and each look-up is answered within so many nanoseconds. -/
structure Prompt (c : Collaborators σ τ) (d : Nat) : Prop where
  service : ∀ q, Timed.Prompt d (c.service q)
  secrets : ∀ ns name, Timed.Prompt d (c.secrets ns name)

/-- A run that began at `now` is not halted by the clock where all answers are prompt and the clock
has room for the polling and for as many answers beside it. -/
def SparesClock (c : Collaborators σ τ) (answers : Nat) (now : Instant) (e : Halt) : Prop :=
  ∀ d, c.Prompt d → now.nanos + c.polling.reach + answers * d < Instant.bound → e = .attempts

namespace Prompt

/-- The service in memory takes no time. -/
theorem of_mock {c : Collaborators Mock τ} (hservice : c.service = Mock.service)
    (hsecrets : ∀ ns name, Timed.Prompt 0 (c.secrets ns name)) : c.Prompt 0 :=
  ⟨fun q => hservice ▸ Mock.service_prompt q, hsecrets⟩

theorem service_answers (h : c.Prompt d) : c.service.Answers :=
  fun q t => (h.service q t).weaken fun _ _ hu => hu.1

theorem secrets_answers (h : c.Prompt d) : c.secrets.Answers :=
  fun ns name t => (h.secrets ns name t).weaken fun _ _ _ => trivial

theorem journaled (h : c.Prompt d) : c.journaled.Prompt d where
  service := h.service
  secrets ns name := by
    change Timed.Prompt d (c.secrets.beside ns name)
    unfold SecretStore.beside
    exact (h.secrets ns name).within

theorem traced (h : c.Prompt d) : c.traced.Prompt d where
  service q t := by
    obtain ⟨r, u, hrun, hu⟩ := (h.service q ⟨t.now, t.log, t.world.2⟩).returns
    exact .answers (Service.exec_traced hrun) hu
  secrets := h.secrets

section Steps

variable (h : c.Prompt d)

include h

theorem call (q : Call) : Timed.Prompt d (c.call q) := by
  unfold Collaborators.call World.onCompute
  exact (h.service q).within

theorem secret (ns name : String) : Timed.Prompt d (c.secret ns name) := by
  unfold Collaborators.secret World.onStorage
  exact (h.secrets ns name).within

theorem userData : Timed.Prompt d (c.userData s) := by
  unfold Collaborators.userData
  split
  · exact prompt_pure d _
  · refine Timed.Prompt.bind (k := 0) (h.secret _ _) fun r => ?_
    split
    · exact prompt_pure 0 _
    · split
      · exact prompt_pure 0 _
      · exact prompt_pure 0 _

theorem instanceExists : Timed.Prompt (d + d) (c.instanceExists s) := by
  unfold Collaborators.instanceExists
  split
  · exact prompt_pure _ _
  · refine (h.call _).bind fun r => ?_
    split
    · exact prompt_pure d _
    · refine Timed.Prompt.bind (k := 0) (h.call _) fun r' => ?_
      split
      · exact .logged fun _ => prompt_pure 0 _
      · split
        · exact .logged fun _ => prompt_pure 0 _
        · exact prompt_pure 0 _

theorem perform_exists (m : Machine) : Timed.Prompt (d + d) (c.perform .exists m) := by
  unfold Collaborators.perform
  refine .logged fun _ => ?_
  split
  next => exact prompt_pure _ _
  next s _ =>
    change Timed.Prompt (d + d) (c.performOn .exists s)
    have hreconcile : Timed.Prompt (d + d) (c.reconcile s .exists) := fun t =>
      ends_bind (Scope.holding_ends_of_never (h.instanceExists t)) fun _ _ hu => ends_pure hu
    have hrelease : ∀ r s', Timed.Prompt 0 (c.release .exists r s') := fun r s' => prompt_pure 0 _
    rw [performOn_eq]
    refine Timed.Prompt.bind (k := 0) hreconcile fun x => ?_
    split
    · exact hrelease x.1 x.2
    · exact .logged fun _ => hrelease x.1 x.2

end Steps

section Room

variable (h : c.Prompt d) {t : Timeline (World σ τ)}

include h

theorem wait (project zone operation : String)
    (hroom : t.now.nanos + c.polling.reach + d < Instant.bound) :
    Ends outOfAttempts (c.wait project zone operation) t fun _ _ => True := by
  unfold Collaborators.wait World.onCompute
  exact (ends_within_of_halts (Service.wait_in_room h.service hroom) fun _ _ hstop => hstop).weaken
    fun _ _ _ => trivial

/-- The boot data and the insertion come before an attempt waits. -/
theorem insertAndWait (hroom : t.now.nanos + c.polling.reach + 3 * d < Instant.bound) :
    Ends outOfAttempts (c.insertAndWait s) t fun _ _ => True := by
  unfold Collaborators.insertAndWait
  refine ends_bind (h.userData t).of_never fun boot u ⟨_, hu⟩ => ?_
  match boot with
  | .error e => exact ends_pure trivial
  | .ok data =>
    refine ends_bind ends_log fun _ v ⟨hv, _⟩ => ?_
    refine ends_bind (h.call _ v).of_never fun r w ⟨_, hw⟩ => ?_
    rw [hv] at hw
    match r with
    | .error e => exact ends_pure trivial
    | .ok o =>
      refine ends_bind (h.wait s.project s.zone o.name (by omega)) fun x _ _ => ?_
      match x with
      | .error e => exact ends_pure trivial
      | .ok _ => exact ends_bind ends_log fun _ _ _ => ends_pure trivial

theorem create (hroom : t.now.nanos + c.polling.reach + 3 * d < Instant.bound) :
    Ends outOfAttempts (c.create s) t fun _ _ => True := by
  have hattempt : Ends outOfAttempts (c.attempt s) t fun _ _ => True := by
    unfold attempt
    split
    · exact ends_pure trivial
    · exact h.insertAndWait hroom
  rw [create_eq]
  have hheld : Ends outOfAttempts (s.holding (c.attempt s)) t fun _ _ => True :=
    Scope.holding_ends hattempt fun _ _ _ he _ _ => he
  refine ends_bind hheld fun result _ _ => ends_bind (tell_ends result) fun s' _ _ => ?_
  exact (conclude_ends h.service_answers result).of_never.weaken fun _ _ _ => trivial

/-- The zone, the instance and its removal come before a removal waits. -/
theorem delete (hroom : t.now.nanos + c.polling.reach + 4 * d < Instant.bound) :
    Ends outOfAttempts (c.delete s) t fun _ _ => True := by
  unfold Collaborators.delete
  refine ends_bind (h.instanceExists t).of_never fun found u ⟨_, hu⟩ => ?_
  match found with
  | .error e => exact ends_pure trivial
  | .ok false => exact ends_bind ends_log fun _ _ _ => ends_pure trivial
  | .ok true =>
    refine ends_bind ends_log fun _ v ⟨hv, _⟩ => ?_
    refine ends_bind (h.call _ v).of_never fun r w ⟨_, hw⟩ => ?_
    rw [hv] at hw
    match r with
    | .error e =>
      simp only
      split
      · exact ends_bind ends_log fun _ _ _ => ends_pure trivial
      · exact ends_pure trivial
    | .ok o =>
      refine ends_bind (h.wait s.project s.zone o.name (by omega)) fun x _ _ => ?_
      match x with
      | .error e => exact ends_pure trivial
      | .ok _ => exact ends_bind ends_log fun _ _ _ => ends_pure trivial

theorem reconcile (hroom : t.now.nanos + c.polling.reach + 4 * d < Instant.bound) (a : Action) :
    Ends outOfAttempts (c.reconcile s a) t fun _ _ => True := by
  have hs := h.service_answers
  match a with
  | .create => exact h.create (by omega)
  | .exists => exact (reconcile_exists_ends hs).of_never.weaken fun _ _ _ => trivial
  | .update => exact (reconcile_update_ends hs).of_never.weaken fun _ _ _ => trivial
  | .delete =>
    exact ends_bind (Scope.holding_ends (h.delete hroom) fun _ _ _ he _ _ => he) fun _ _ _ =>
      ends_pure trivial

end Room

end Prompt

section Perform

variable {stop : Halt → Timeline (World σ (List Write × τ)) → Prop} {a : Action} {m : Machine}
  {t : Timeline (World σ (List Write × τ))}

/-- An action halts only where the work on its machine does. -/
theorem perform_ends_of_reconcile (hm : c.machines.Answers fun _ => True)
    (h : ∀ s, Scope.acquire c.defaultProject m = .ok s →
      Ends stop (c.journaled.reconcile s a) (a.announced m t) fun _ _ => True) :
    Ends stop (c.journaled.perform a m) t fun _ _ => True := by
  cases hacq : Scope.acquire c.defaultProject m with
  | error e => exact .answers (exec_perform_of_error (c := c.journaled) hacq t) trivial
  | ok s =>
    refine Ends.of_exec ?_ (exec_perform (c := c.journaled) hacq t)
    rw [performOn_eq]
    refine ends_bind (h s hacq) fun x u _ => ?_
    have hrelease : ∀ v, Ends stop (c.journaled.release a x.1 x.2) v fun _ _ => True := by
      intro v
      unfold release
      split
      · exact ends_bind (close_ends hm).of_never fun _ _ _ => ends_pure trivial
      · exact ends_pure trivial
    split
    · exact hrelease u
    · exact ends_bind ends_log fun _ v _ => hrelease v

theorem Prompt.perform (h : c.Prompt d) (hm : c.machines.Answers fun _ => True)
    (hroom : t.now.nanos + c.polling.reach + 4 * d < Instant.bound) (a : Action) (m : Machine) :
    Ends outOfAttempts (c.journaled.perform a m) t fun _ _ => True :=
  perform_ends_of_reconcile hm fun _ _ => h.journaled.reconcile (t := a.announced m t) hroom a

end Perform

/-- With a configuration that was loaded, prompt collaborators and room on the clock, every action
ends, unless the timeout has room for more checks than can be counted. So, once an attempt at making
an instance is over, whatever was asked and replied, the instance is read, and the status is what
that and the attempt make of it and is written when it has changed. -/
theorem perform_ends_in_room {lookup : String → Option String} {cfg : Config}
    (hload : Config.load lookup = .ok cfg) (hpolling : c.polling = cfg.polling) (h : c.Prompt d)
    (hm : c.machines.Answers fun _ => True) (m : Machine)
    {t : Timeline (World (List Exchange × σ) (List Write × τ))}
    (hroom : t.now.nanos + cfg.polling.reach + 4 * d < Instant.bound) :
    (∀ a, Ends (fun e _ => e = .attempts ∧ PollConfig.attemptLimit ≤ cfg.operationTimeout.seconds)
      (c.traced.journaled.perform a m) t fun _ _ => True) ∧
      ∀ s, Scope.acquire c.defaultProject m = .ok s →
        Ends (fun e _ => e = .attempts ∧ PollConfig.attemptLimit ≤ cfg.operationTimeout.seconds)
          (c.traced.journaled.perform .create m) t fun y u => ∃ es r result written,
          s.Attempt (exec (c.traced.journaled.userData s) (Action.create.announced m t)).1
            result es ∧
            u.world.compute.1 = t.world.compute.1 ++ es ++ [⟨s.reading, r⟩] ∧
            y.machine = m.withStatus (s.concluded result r).status ∧
            Action.create.Settles m result (s.concluded result r).status written y.result ∧
            u.world.storage.1 = t.world.storage.1 ++ written := by
  rw [← hpolling] at hroom
  -- Halting, if at all, for want of numbers, polling has room for so many checks, which are a
  -- second apart.
  have hcount : ∀ (e : Halt) (u : Timeline (World (List Exchange × σ) (List Write × τ))),
      e = .attempts → c.polling.Stops e u.now →
        PollConfig.attemptLimit ≤ cfg.operationTimeout.seconds := by
    rintro e u rfl hstop
    rw [hpolling] at hstop
    have hpace := Nat.mul_le_mul_left PollConfig.attemptLimit (Config.pace_of_load hload)
    exact (Nat.le_div_iff_mul_le (by decide)).mpr (Nat.le_trans hpace hstop.mul_pace_le)
  have hends : ∀ a, Ends outOfAttempts (c.traced.journaled.perform a m) t fun _ _ => True :=
    fun a => h.traced.perform hm hroom a m
  have hs := h.traced.service_answers
  have hk := h.traced.secrets_answers
  refine ⟨fun a => ?_, fun s hacq => ?_⟩
  · cases hacq : Scope.acquire c.defaultProject m with
    | error e => exact .answers (exec_perform_of_error (c := c.traced.journaled) hacq t) trivial
    | ok s =>
      refine ((hends a).and (journaled_perform_ends (c := c.traced) hs hk hm hacq t)).mono ?_
        fun _ _ _ => trivial
      rintro e u ⟨he, hstop, _⟩
      exact ⟨he, hcount e u he hstop⟩
  · refine ((hends .create).and (journaled_perform_ends (c := c.traced) hs hk hm hacq t)).mono ?_ ?_
    · rintro e u ⟨he, hstop, _⟩
      exact ⟨he, hcount e u he hstop⟩
    · rintro y u ⟨_, result, st, v, written, hrun, hmachine, hsettles, hwritten, hcompute, _⟩
      have hcreate :=
        create_traced_ends (c := c.journaled) (s := s) (t := Action.create.announced m t)
        h.service_answers h.journaled.secrets_answers
      obtain ⟨es, r, hes, hexchanges, hstatus, _⟩ := hcreate.of_run hrun
      have hst : st = (s.concluded result r).status := congrArg Scope.status hstatus
      rw [hst] at hmachine hsettles
      refine ⟨es, r, result, written, hes, ?_, hmachine, hsettles, hwritten⟩
      rw [hcompute, hexchanges]
      rfl

theorem inMemory_prompt (polling : PollConfig) (defaultProject : Option String) :
    (inMemory polling defaultProject).Prompt 0 := .of_mock rfl fun _ _ => prompt_pure 0 _

/-- In memory nothing is cut short as long as nothing is set. -/
theorem not_stops_inMemory {defaultProject : Option String} {answers : Nat} {e : Halt}
    (h : (inMemory default defaultProject).SparesClock answers .start e) (now : Instant) :
    ¬(default : PollConfig).Stops e now := by
  have hroom :
      Instant.start.nanos + (default : PollConfig).reach + answers * 0 < Instant.bound := by
    rw [Nat.mul_zero]
    decide +kernel
  obtain rfl := h 0 (inMemory_prompt default defaultProject) hroom
  exact Nat.not_le.mpr (by decide +kernel)

theorem perform_ends_in_room_unset : ∃ cfg, Config.load (fun _ => none) = .ok cfg ∧
    (inMemory cfg.polling (some "lab")).Prompt 0 ∧ MachineStore.memory.Answers (fun _ => True) ∧
      cfg.polling.reach < Instant.bound ∧ Scope.acquire (some "lab") .small = .ok .small ∧
      (∀ a, Ends (fun e _ => e = .attempts ∧ PollConfig.attemptLimit ≤ cfg.operationTimeout.seconds)
        ((inMemory cfg.polling (some "lab")).traced.journaled.perform a .small)
        (World.start ([], .new) ([], .empty)) fun _ _ => True) ∧
      Ends (fun e _ => e = .attempts ∧ PollConfig.attemptLimit ≤ cfg.operationTimeout.seconds)
        ((inMemory cfg.polling (some "lab")).traced.journaled.perform .create .small)
        (World.start ([], .new) ([], .empty)) fun y u => ∃ es r result written,
        Scope.small.Attempt
          (exec ((inMemory cfg.polling (some "lab")).traced.journaled.userData .small)
            (Action.create.announced .small (World.start ([], .new) ([], .empty)))).1 result es ∧
          u.world.compute.1 = es ++ [⟨Scope.small.reading, r⟩] ∧
          y.machine = Machine.small.withStatus (Scope.small.concluded result r).status ∧
          Action.create.Settles .small result (Scope.small.concluded result r).status
            written y.result ∧
          u.world.storage.1 = written := by
  obtain ⟨cfg, hload, hpolling⟩ : ∃ cfg, Config.load (fun _ => none) = .ok cfg ∧
    cfg.polling = default := ⟨_, rfl, rfl⟩
  have hprompt := inMemory_prompt cfg.polling (some "lab")
  have hm : MachineStore.memory.Answers fun _ => True := MachineStore.memory_answers
  have hroom : cfg.polling.reach < Instant.bound := by
    rw [hpolling]
    decide
  have hacq : Scope.acquire (some "lab") .small = .ok .small := rfl
  obtain ⟨hends, hcreate⟩ :=
    perform_ends_in_room (c := inMemory cfg.polling (some "lab"))
      (t := World.start ([], .new) ([], .empty)) hload rfl
      hprompt hm .small (by simpa [World.start, Instant.start] using hroom)
  exact ⟨cfg, hload, hprompt, hm, hroom, hacq, hends, hcreate _ hacq⟩

/-- Nothing is set but the timeout, which the clock cannot hold, and a project. -/
def endless (key : String) : Option String :=
  if key = Config.timeoutKey then some "9223372036854775808"
  else if key = Config.projectKey then some "lab" else none

/-- A timeout that the clock cannot hold is accepted, and then making an instance halts with the
instance made, and with nothing written of it and nothing told. -/
theorem create_halts_on_endless_timeout : ∃ cfg u, Config.load endless = .ok cfg ∧
    exec ((inMemory cfg.polling cfg.defaultProject).perform .create .small)
      (World.start .new .empty) =
      (.error .clock, u) ∧
      (u.world.compute.instances.find? Scope.small.key).isSome = true ∧ u.world.storage.writes = 0 ∧
      u.world.events = [] := by
  obtain ⟨cfg, hload, hpolling, hproject⟩ : ∃ cfg, Config.load endless = .ok cfg ∧
      cfg.polling = ⟨defaultPollInterval, .ofSeconds 9223372036854775808⟩ ∧
        cfg.defaultProject = some "lab" :=
    ⟨_, rfl, rfl, rfl⟩
  refine ⟨cfg, (exec ((inMemory cfg.polling cfg.defaultProject).perform .create .small)
    (World.start .new .empty)).2,
    hload, Prod.ext (eq_error_of_errorOf? ?_) rfl, ?_⟩
  · rw [hpolling, hproject]
    decide +kernel
  · rw [hpolling, hproject]
    decide +kernel

end Collaborators

end Provision
