import Provision.Proofs.Deletion
import Provision.Proofs.Punctual
import Provision.Proofs.Schedule

/-!
The time that making an instance takes on the service in memory. An operation there ends with a
certain poll, and the timeout has room for a certain number of waits; whichever of the two comes
first decides how often the operation is looked at, and what is answered.
-/
namespace Provision

open Timed

namespace PollConfig

/-- How many waits fit into the timeout: one while a whole interval is left, and none after that. -/
def waits (c : PollConfig) : Nat :=
  if c.timeout.nanos < c.interval.nanos then 0
  else (c.timeout.nanos - c.interval.nanos) / c.pace + 1

variable {c : PollConfig}

theorem pace_pos (hpositive : 0 < c.interval.nanos) : 0 < c.pace := by
  have hlongest : 0 < longestSleep.nanos := by decide
  unfold pace
  omega

theorem pace_of_le (h : c.interval.nanos ≤ longestSleep.nanos) : c.pace = c.interval.nanos :=
  Nat.min_eq_left h

/-- Intervals that are waited for as a whole are so many as go into the timeout. -/
theorem waits_eq_div (hpositive : 0 < c.interval.nanos)
    (h : c.interval.nanos ≤ longestSleep.nanos) :
    c.waits = c.timeout.nanos / c.interval.nanos := by
  unfold waits
  rw [pace_of_le h]
  split
  next hlt => exact (Nat.div_eq_of_lt hlt).symm
  next hle => exact (Nat.div_eq_sub_div hpositive (Nat.not_lt.mp hle)).symm

theorem timeout_lt_iff (hpositive : 0 < c.interval.nanos) (n : Nat) :
    c.timeout.nanos < n * c.pace + c.interval.nanos ↔ c.waits ≤ n := by
  unfold waits
  split
  next hlt =>
    have hgap := Nat.zero_le (n * c.pace)
    exact ⟨fun _ => Nat.zero_le n, fun _ => by omega⟩
  next hle =>
    rw [Nat.succ_le_iff, Nat.div_lt_iff_lt_mul (pace_pos hpositive)]
    omega

/-- Polling from `now` on for something that is done after `n` waits: the interval is one of whole
milliseconds, the waits can be counted, and the clock can hold the deadline and the ends of all
waits. -/
structure Fits (c : PollConfig) (now : Instant) (n : Nat) : Prop where
  positive : 0 < c.interval.nanos
  whole : c.interval.IsWhole
  started : now.IsWhole
  count : c.waits < attemptLimit
  timeout : now.nanos + c.timeout.nanos < Instant.bound
  interval : c.waits < n → now.nanos + c.waits * c.pace + c.interval.nanos < Instant.bound

/-- What making an instance answers when its operation is done after `n` waits, with these
faults. -/
def answer (c : PollConfig) (o : Operation) (n : Nat) (faults : List OperationFault) :
    Except ActuatorError Unit :=
  if n ≤ c.waits then if faults = [] then .ok () else .error (.operationFailed o.name faults)
  else
    .error (.operationTimeout o.name ⟨c.waits * c.pace⟩ (c.waits + 1)
      (some { o with state := .running }))

end PollConfig

namespace TrackedOperation

variable {faults : List OperationFault} {x : TrackedOperation} {n : Nat}

/-- An operation after so many more polls. -/
def polled (faults : List OperationFault) (x : TrackedOperation) : Nat → TrackedOperation
  | 0 => x
  | n + 1 => (polled faults x n).poll faults

/-- While polls remain it is running. -/
theorem polled_of_lt (h : n < x.remaining) :
    x.polled faults (n + 1) = ⟨{ x.operation with state := .running }, x.remaining - (n + 1)⟩ := by
  induction n with
  | zero => exact if_pos h
  | succ n ih =>
    have hremaining : 0 < x.remaining - (n + 1) := by omega
    rw [polled, ih (by omega), poll, if_pos hremaining]
    rfl

/-- When none remain it is done, and stays so. -/
theorem polled_of_le (h : x.remaining ≤ n) : x.polled faults (n + 1) =
    ⟨{ x.operation with
        state := .done
        faults := if faults.isEmpty then x.operation.faults else some faults }, 0⟩ := by
  induction n with
  | zero => exact if_neg (Nat.not_lt.mpr h)
  | succ n ih =>
    rw [polled]
    obtain hlt | hle := Nat.lt_or_ge n x.remaining
    · have hlast : ¬0 < x.remaining - (n + 1) := by omega
      rw [polled_of_lt hlt, poll, if_neg hlast]
    · rw [ih hle, poll, if_neg (Nat.lt_irrefl 0)]
      split <;> rfl

end TrackedOperation

namespace Mock

variable {m m' : Mock} {project zone operation : String} {x : TrackedOperation} {n : Nat}

/-- The mock after an operation was looked at so many times. -/
structure Polled (m : Mock) (project zone operation : String) (x : TrackedOperation)
    (n : Nat) (m' : Mock) :
    Prop where
  tracked : m'.operations.find? operation = some (x.polled m.operationFaults n)
  calls :
    m'.calls.toList = m.calls.toList ++ List.replicate n (.getOperation project zone operation)
  operationFaults : m'.operationFaults = m.operationFaults
  alike : m.Alike m'

theorem Polled.start (h : m.operations.find? operation = some x) :
    m.Polled project zone operation x 0 m :=
  ⟨h, (List.append_nil _).symm, rfl, .refl m⟩

/-- A further look tells how far the operation is then. -/
theorem Polled.reply (h : m.Polled project zone operation x n m')
    (hf : m.failures.find? .getOperation = none) :
    ∃ m'', m'.reply (.getOperation project zone operation) =
        (.ok (x.polled m.operationFaults (n + 1)).operation, m'') ∧
      m.Polled project zone operation x (n + 1) m'' := by
  have hf' : m'.failures.find? .getOperation = none := by rwa [h.alike.failures]
  have hreply : m'.reply (.getOperation project zone operation) = _ :=
    reply_getOperation hf' h.tracked
  have halike := reply_getOperation_alike (m := m') project zone operation
  rw [hreply] at halike
  rw [h.operationFaults] at hreply halike
  refine ⟨_, hreply, Table.find?_insert_self .., ?_, h.operationFaults, h.alike.trans halike⟩
  change (m'.calls.push _).toList = _
  rw [Array.toList_push, h.calls, List.append_assoc, ← List.replicate_succ']

/-- The looks at an operation: each takes no time. -/
def looks (faults : List OperationFault) (x : TrackedOperation) :
    Checks Operation ComputeError where
  takes _ := ⟨0⟩
  sees n := Service.progress (.ok (x.polled faults (n + 1)).operation)

theorem looks_of_lt {faults : List OperationFault} (h : n < x.remaining) :
    (looks faults x).sees n = .ok (.pending { x.operation with state := .running }) := by
  simp only [looks, x.polled_of_lt h, Service.progress]
  rfl

theorem looks_of_le {faults : List OperationFault} (h : x.remaining ≤ n) : (looks faults x).sees n =
    .ok (.done
      { x.operation with
        state := .done
        faults := if faults.isEmpty then x.operation.faults else some faults }) := by
  simp only [looks, x.polled_of_le h, Service.progress]
  rfl

theorem finishes_looks (faults : List OperationFault) (pause : Duration) (n : Nat) :
    ((looks faults x).finishes pause n).nanos = n * pause.nanos :=
  Checks.begins_of_prompt (s := looks faults x) (fun _ => rfl) n

section Waiting

variable {c : PollConfig} {faults : List OperationFault}

/-- The look that sees the operation done is the last, or that after which no wait fits any more. -/
theorem looks_isLast (hpositive : 0 < c.interval.nanos) :
    (looks faults x).IsLast c ⟨c.pace⟩ (min x.remaining c.waits) := by
  have hconcludes : ∀ n, (looks faults x).Concludes c ⟨c.pace⟩ n ↔ min x.remaining c.waits ≤ n := by
    intro n
    have hlate :
        (c.timeout.nanos < ((looks faults x).finishes ⟨c.pace⟩ n).nanos + c.interval.nanos) ↔
          c.waits ≤ n := by
      rw [← c.timeout_lt_iff hpositive, finishes_looks]
    have hdone : (∀ a, (looks faults x).sees n ≠ .ok (.pending a)) ↔ x.remaining ≤ n := by
      obtain hlt | hle := Nat.lt_or_ge n x.remaining
      · simp [looks_of_lt hlt, Nat.not_le.mpr hlt]
      · simp [looks_of_le hle, hle]
    rw [Checks.Concludes, hlate, hdone]
    omega
  refine ⟨(hconcludes _).mpr (Nat.le_refl _), fun k hk h => ?_⟩
  exact Nat.not_lt.mpr ((hconcludes k).mp h) hk

theorem check_ends_of_polled {t : Timeline Mock} (h : m.Polled project zone operation x n t.world)
    (hf : m.failures.find? .getOperation = none) :
    Ends never (Service.check service project zone operation) t fun r u =>
      r = (looks m.operationFaults x).sees n ∧ u.now = t.now ∧
        m.Polled project zone operation x (n + 1) u.world := by
  obtain ⟨m', hreply, hpolled⟩ := h.reply hf
  unfold Service.check
  refine ends_bind (service_ends _) fun r u ⟨hn, hr⟩ => ?_
  rw [hreply] at hr
  obtain ⟨rfl, rfl⟩ := Prod.mk.inj hr
  refine ends_bind ends_log fun _ v ⟨hv, hw⟩ => ends_pure ⟨rfl, hv.trans hn, ?_⟩
  rwa [hw]

/-- Waiting for an operation that is known to the mock. -/
theorem wait_ends_of_tracked {t : Timeline Mock} (hx : t.world.operations.find? operation = some x)
    (hf : t.world.failures.find? .getOperation = none) (hc : c.Fits t.now x.remaining) :
    Ends never (Service.wait service c project zone operation) t fun r u =>
      r = Service.waited project zone operation
          ((looks t.world.operationFaults x).verdict ⟨c.pace⟩ (min x.remaining c.waits)) ∧
        t.world.Polled project zone operation x (min x.remaining c.waits + 1) u.world := by
  have hlast : (looks t.world.operationFaults x).IsLast c ⟨c.pace⟩ (min x.remaining c.waits) :=
    looks_isLast hc.positive
  have hpoll : ∀ v : Timeline Mock, v.now = t.now → v.world = t.world →
      Ends never (poll c (Service.check service project zone operation)) v fun y u =>
        y = (looks t.world.operationFaults x).verdict ⟨c.pace⟩ (min x.remaining c.waits) ∧
          t.world.Polled project zone operation x (min x.remaining c.waits + 1) u.world := by
    intro v hn hw
    have hfits : c.Fits v.now x.remaining := hn ▸ hc
    have hclock (a : Operation)
        (ha : (looks t.world.operationFaults x).sees (min x.remaining c.waits) =
          .ok (.pending a)) :
        v.now.nanos + ((looks t.world.operationFaults x).finishes ⟨c.pace⟩
          (min x.remaining c.waits)).nanos + c.interval.nanos < Instant.bound := by
      have hlt : c.waits < x.remaining := by
        refine Nat.not_le.mp fun hle => ?_
        rw [Nat.min_eq_left hle, looks_of_le (Nat.le_refl _)] at ha
        cases ha
      rw [Nat.min_eq_right (Nat.le_of_lt hlt), finishes_looks]
      exact hfits.interval hlt
    have hstart : t.world.Polled project zone operation x 0 v.world := by
      rw [hw]
      exact .start hx
    have hwhole : ∀ n, ((looks t.world.operationFaults x).takes n).IsWhole := fun _ => rfl
    have hlooks :=
      Checks.poll_ends_of_checks (t := v) (M := t.world.Polled project zone operation x) hlast
      (fun n u _ hmade => check_ends_of_polled hmade hf)
      (fun n _ => Checks.wake_finishes hfits.started hfits.whole hwhole rfl n)
      (Nat.lt_of_le_of_lt (Nat.min_le_right _ _) hfits.count) hfits.timeout hclock hstart
    exact hlooks.weaken fun y u hy => ⟨hy.1, hy.2.2⟩
  refine (Service.wait_ends_of_poll hpoll).weaken ?_
  rintro r u ⟨y, v, ⟨rfl, hv⟩, hr, hu⟩
  rw [hu]
  exact ⟨hr, hv⟩

/-- Waiting for an operation comes to what it answers. -/
theorem waited_looks {o : Operation} (ho : o.faults = none) (n : Nat) :
    (Service.waited project zone o.name
      ((looks faults ⟨o, n⟩).verdict ⟨c.pace⟩ (min n c.waits))).map (fun _ => ()) =
      c.answer o n faults := by
  unfold PollConfig.answer
  obtain hlt | hle := Nat.lt_or_ge c.waits n
  · have hsees : (looks faults ⟨o, n⟩).sees c.waits = _ := looks_of_lt hlt
    rw [Nat.min_eq_right (Nat.le_of_lt hlt), if_neg (Nat.not_le.mpr hlt)]
    simp only [Checks.verdict, hsees, Service.waited]
    have hfinishes : (looks faults ⟨o, n⟩).finishes ⟨c.pace⟩ c.waits = ⟨c.waits * c.pace⟩ :=
      congrArg Duration.mk (finishes_looks faults ⟨c.pace⟩ c.waits)
    rw [hfinishes]
    rfl
  · have hsees : (looks faults ⟨o, n⟩).sees n = _ := looks_of_le (Nat.le_refl n)
    rw [Nat.min_eq_left hle, if_pos hle]
    simp only [Checks.verdict, hsees, Service.waited, Operation.faultList, ho]
    cases faults <;> rfl

end Waiting

end Mock

/-- Operations take as many waits as the default timeout has room for, and then end with a fault. -/
def Mock.sluggish : Mock :=
  { Mock.new with pendingPolls := 36, operationFaults := [⟨"QUOTA_EXCEEDED", "", "no quota left"⟩] }

namespace Collaborators

section Attempt

variable {τ : Type} {c : Collaborators Mock τ} {s : Scope} {t : Timeline (World Mock τ)}

theorem call_ends_of_mock (hservice : c.service = Mock.service) (q : Call) :
    Ends never (c.call q) t fun r u => u.now = t.now ∧
      (r, u.world.compute) = t.world.compute.reply q := by
  unfold call World.onCompute
  rw [hservice]
  refine (ends_within (Mock.service_ends q)).weaken fun r u ⟨v, ⟨hn, hr⟩, hnow, hw⟩ => ?_
  rw [hw]
  exact ⟨hnow.trans hn, hr⟩

theorem wait_ends_of_mock (hservice : c.service = Mock.service) {project zone operation : String}
    {x : TrackedOperation} (hx : t.world.compute.operations.find? operation = some x)
    (hf : t.world.compute.failures.find? .getOperation = none)
    (hfits : c.polling.Fits t.now x.remaining) :
    Ends never (c.wait project zone operation) t fun r u =>
      r = Service.waited project zone operation
        ((Mock.looks t.world.compute.operationFaults x).verdict
        ⟨c.polling.pace⟩ (min x.remaining c.polling.waits)) ∧
      t.world.compute.Polled project zone operation x (min x.remaining c.polling.waits + 1)
        u.world.compute := by
  unfold wait World.onCompute
  rw [hservice]
  refine (ends_within (Mock.wait_ends_of_tracked hx hf hfits)).weaken
    fun r u ⟨v, ⟨hr, hv⟩, _, hw⟩ => ?_
  rw [hw]
  exact ⟨hr, hv⟩

section Absent

variable (hservice : c.service = Mock.service) (hv : s.machine.validationError? = none)
  (hdata : c.secrets.Resolves s.machine t.world.storage)
  (hprompt : ∀ ns name, Timed.Prompt 0 (c.secrets ns name))
  (hinsert : t.world.compute.failures.find? .insertInstance = none)
  (hpoll : t.world.compute.failures.find? .getOperation = none)
  (hi : t.world.compute.instances.find? s.key = none)
  (hfits : c.polling.Fits t.now t.world.compute.pendingPolls)

include hservice hv hdata hprompt hinsert hpoll hi hfits

/-- On the mock, with secrets that are looked up in no time, an attempt at making an absent instance
comes to what waiting for its operation comes to. -/
theorem attempt_ends_of_mock :
    Ends never (c.attempt s) t fun result u => ∃ data o,
      result = c.polling.answer o t.world.compute.pendingPolls t.world.compute.operationFaults ∧
        u.world.compute.calls.toList = t.world.compute.calls.toList ++ s.insertion data ::
          List.replicate (min t.world.compute.pendingPolls c.polling.waits + 1) (s.polling o) ∧
        u.world.compute.failures = t.world.compute.failures ∧
        u.world.compute.instances.find? s.key =
          some (Mock.created (t.world.compute.nextId + 1) s.zone
            (s.machine.request s.project data)) := by
  have hp : c.Prompt 0 := .of_mock hservice hprompt
  obtain ⟨_, v, hrun, data, rfl⟩ := (userData_ends_of_resolves hdata).returns
  obtain ⟨_, hcompute, _⟩ := (userData_ends hp.secrets_answers).of_run hrun
  have hnow := Timed.Prompt.now_eq hp.userData hrun
  unfold attempt
  split
  next e he =>
    rw [hv] at he
    cases he
  unfold insertAndWait
  refine ends_bind_of_exec hrun ?_
  refine ends_bind ends_log fun _ w ⟨hwn, hww⟩ => ?_
  refine ends_bind (call_ends_of_mock hservice (s.insertion data)) fun r u ⟨hun, hr⟩ => ?_
  obtain ⟨o, m, hreply, hmakes⟩ :=
    Mock.reply_insertInstance (i := s.machine.request s.project data) hinsert hi
  rw [hww, hcompute, hreply] at hr
  obtain ⟨rfl, rfl⟩ := Prod.mk.inj hr
  rw [← hmakes.failures] at hpoll
  rw [← hnow, ← hwn, ← hun] at hfits
  refine ends_bind (wait_ends_of_mock hservice hmakes.tracked hpoll hfits) fun x z ⟨hx, hz⟩ => ?_
  have hanswer : x.map (fun _ => ()) =
      c.polling.answer o t.world.compute.pendingPolls t.world.compute.operationFaults := by
    rw [hx, ← hmakes.operationFaults]
    exact Mock.waited_looks hmakes.faultless _
  have hcalls : z.world.compute.calls.toList = t.world.compute.calls.toList ++ s.insertion data ::
      List.replicate (min t.world.compute.pendingPolls c.polling.waits + 1) (s.polling o) := by
    rw [hz.calls, hmakes.calls, Array.toList_push, List.append_assoc]
    rfl
  have hfailures : z.world.compute.failures = t.world.compute.failures :=
    hz.alike.failures.trans hmakes.failures
  have hfound : z.world.compute.instances.find? s.key = _ := hz.alike.instances ▸ hmakes.found
  cases x with
  | error e => exact ends_pure ⟨data, o, hanswer, hcalls, hfailures, hfound⟩
  | ok o' =>
    refine ends_bind ends_log fun _ z' ⟨_, hz'⟩ => ends_pure ⟨data, o, hanswer, ?_⟩
    rw [hz']
    exact ⟨hcalls, hfailures, hfound⟩

/-- The read at the end finds the instance. -/
theorem create_ends_of_mock (hread : t.world.compute.failures.find? .getInstance = none) :
    Ends never (c.create s) t fun x u => ∃ data o,
      x.1 = c.polling.answer o t.world.compute.pendingPolls t.world.compute.operationFaults ∧
        u.world.compute.calls.toList = t.world.compute.calls.toList ++ s.insertion data ::
          List.replicate (min t.world.compute.pendingPolls c.polling.waits + 1)
            (s.polling o) ++ [s.reading] ∧
        ∃ i, u.world.compute.instances.find? s.key = some i ∧ i.interfaces ≠ [] ∧
          x.2 = s.concluded x.1 (.ok i) := by
  have hanswers : c.service.Answers := hservice ▸ Mock.service_answers
  obtain ⟨result, v, hrun, data, o, hresult, hcalls, hfailures, hfound⟩ :=
    (attempt_ends_of_mock hservice hv hdata hprompt hinsert hpoll hi hfits).returns
  refine (create_ends_of_attempt hanswers hrun).weaken ?_
  rintro _ u ⟨r, hr, rfl, _⟩
  rw [hservice] at hr
  rw [← hfailures] at hread
  have hreply : v.world.compute.reply s.reading = _ := Mock.reply_getInstance hread hfound
  have hr' := Mock.reply_of_step hr
  rw [hreply] at hr'
  obtain ⟨rfl, hu⟩ := Prod.mk.inj hr'
  rw [hu]
  refine ⟨data, o, hresult, ?_, _, hfound, Scope.interfaces_created_ne_nil hv _ data, rfl⟩
  change (v.world.compute.calls.push s.reading).toList = _
  rw [Array.toList_push, hcalls]

end Absent

end Attempt

/-- Making an absent instance on the mock looks at its operation once and then after each wait,
until it is done or no wait fits any more, and answers accordingly. Waits of thirty years at most
are as long as the interval, so that so many fit as go into the timeout. Whatever is answered, the
instance is there, and the status shows it and is what was written last. -/
theorem create_budget {τ : Type} {c : Collaborators Mock τ} {m : Machine} {s : Scope}
    {t : Timeline (World Mock (List Write × τ))} (hservice : c.service = Mock.service)
    (hacq : Scope.acquire c.defaultProject m = .ok s) (hv : m.validationError? = none)
    (hdata : c.secrets.Resolves m t.world.storage.2)
    (hprompt : ∀ ns name, Timed.Prompt 0 (c.secrets ns name)) (hm : c.machines.Takes)
    (hinsert : t.world.compute.failures.find? .insertInstance = none)
    (hread : t.world.compute.failures.find? .getInstance = none)
    (hpoll : t.world.compute.failures.find? .getOperation = none)
    (hi : t.world.compute.instances.find? s.key = none)
    (hfits : c.polling.Fits t.now t.world.compute.pendingPolls) :
    (c.polling.interval.nanos ≤ longestSleep.nanos →
      c.polling.waits = c.polling.timeout.nanos / c.polling.interval.nanos) ∧
      Ends never (c.journaled.perform .create m) t fun y u => ∃ data o i seen,
        y.result = c.polling.answer o t.world.compute.pendingPolls t.world.compute.operationFaults ∧
          u.world.compute.calls.toList = t.world.compute.calls.toList ++ s.insertion data ::
            List.replicate (min t.world.compute.pendingPolls c.polling.waits + 1)
              (s.polling o) ++ [s.reading] ∧
          u.world.compute.instances.find? s.key = some i ∧ i.observation? = some seen ∧
          y.machine.status.observed = (s.projection seen).observed ∧
          ∀ b : Machine, b.statusAfter t.world.storage.1 = m.status →
            b.statusAfter u.world.storage.1 = y.machine.status := by
  refine ⟨c.polling.waits_eq_div hfits.positive, ?_⟩
  have hanswers := journaled_service_answers hservice
  have hsm := Scope.machine_of_acquire hacq
  have hp : c.Prompt 0 := .of_mock hservice hprompt
  let P : Except ActuatorError Unit × Scope → World Mock (List Write × τ) → Prop := fun x w =>
    w.storage.1 = t.world.storage.1 ∧ ∃ data o,
      x.1 = c.polling.answer o t.world.compute.pendingPolls t.world.compute.operationFaults ∧
        w.compute.calls.toList = t.world.compute.calls.toList ++ s.insertion data ::
          List.replicate (min t.world.compute.pendingPolls c.polling.waits + 1)
            (s.polling o) ++ [s.reading] ∧
        ∃ i, w.compute.instances.find? s.key = some i ∧ i.interfaces ≠ [] ∧
          x.2 = s.concluded x.1 (.ok i)
  have hcreate : ∀ v, v.now = t.now → v.world = t.world →
      Ends never (c.journaled.reconcile s .create) v fun x u => P x u.world := by
    intro v hn hw
    rw [← hn, ← hw] at hfits
    rw [← hw] at hdata hinsert hread hpoll hi
    have hends :=
      create_ends_of_mock (c := c.journaled) (s := s) (t := v) hservice (hsm ▸ hv)
        (hsm ▸ hdata.beside)
      hp.journaled.secrets hinsert hpoll hi hfits hread
    have hkept := reconcile_keeps (c.journaled_sustains s v.world.storage.1) hanswers
      (Scope.isDirty_of_acquire hacq) .create v rfl
    obtain ⟨x, u, hrun, hx⟩ := hends.returns
    rw [show exec (c.journaled.reconcile s .create) v = _ from hrun] at hkept
    rw [hw] at hx hkept
    exact .answers hrun ⟨hkept, hx⟩
  refine (perform_ends_of_persists (a := .create) P rfl hacq hm hcreate).weaken ?_
  rintro _ u ⟨x, w, closed, ⟨hstorage, data, o, hx, hcalls, i, hfound, hne, hscope⟩, hclosed, rfl⟩
  obtain ⟨seen, hseen⟩ := Instance.exists_observation hne
  obtain rfl := hclosed.eq_ok
  obtain ⟨hcompute, _⟩ := hclosed.frame
  rw [← hcompute] at hcalls hfound
  obtain ⟨st, hst⟩ := s.concluded_eq_withStatus x.1 (.ok i)
  refine ⟨data, o, i, seen, (firstFailure_ok x.1).trans hx, hcalls, hfound, hseen,
    ?_, fun b hb => ?_⟩
  · change x.2.status.observed = _
    rw [hscope, Scope.observed_concluded, Scope.observed_read]
    simp only [Scope.seen?, hseen]
    rfl
  · refine hclosed.statusAfter ?_
    rw [hstorage, hb, hscope, hst]
    obtain ⟨_, rfl⟩ := Scope.acquire_eq_ok.mp hacq
    rfl

theorem create_budget_inMemory :
    Scope.acquire (some "lab") .small = .ok .small ∧ Machine.small.validationError? = none ∧
      (SecretStore.memory ∅).Resolves .small MachineTable.empty ∧
      (∀ ns name, Timed.Prompt 0 ((SecretStore.memory ∅ : SecretStore MachineTable) ns name)) ∧
      MachineStore.memory.Takes ∧ (∀ method, Mock.sluggish.failures.find? method = none) ∧
      Mock.sluggish.instances.find? Scope.small.key = none ∧ (default : PollConfig).Fits .start 36 ∧
      Ends never ((inMemory default (some "lab")).journaled.perform .create .small)
        (World.start .sluggish ([], .empty)) fun y u => ∃ data o i seen,
        y.result = .error (.operationFailed o.name [⟨"QUOTA_EXCEEDED", "", "no quota left"⟩]) ∧
          u.world.compute.calls.toList =
            Scope.small.insertion data :: List.replicate 37 (Scope.small.polling o) ++
              [Scope.small.reading] ∧
          u.world.compute.instances.find? Scope.small.key = some i ∧ i.observation? = some seen ∧
          y.machine.status.observed = (Scope.small.projection seen).observed ∧
          Machine.small.statusAfter u.world.storage.1 = y.machine.status := by
  have hacq : Scope.acquire (some "lab") .small = .ok .small := rfl
  have hv : Machine.small.validationError? = none := by decide
  have hdata : (SecretStore.memory ∅).Resolves .small MachineTable.empty := nofun
  have hprompt :
      ∀ ns name, Timed.Prompt 0 ((SecretStore.memory ∅ : SecretStore MachineTable) ns name) :=
    fun _ _ => prompt_pure 0 _
  have hsound : ∀ method, Mock.sluggish.failures.find? method = none := fun _ => rfl
  have hfits : (default : PollConfig).Fits .start 36 :=
    ⟨by decide, rfl, rfl, by decide, by decide, by decide⟩
  obtain ⟨_, hcreate⟩ :=
    create_budget (c := inMemory default (some "lab")) (t := World.start .sluggish ([], .empty))
    rfl hacq hv hdata hprompt MachineStore.memory_takes (hsound _) (hsound _) (hsound _) rfl hfits
  refine ⟨hacq, hv, hdata, hprompt, MachineStore.memory_takes, hsound, rfl,
    hfits, hcreate.weaken ?_⟩
  rintro y u ⟨data, o, i, seen, hresult, hcalls, hfound, hseen, hstatus, hwritten⟩
  exact ⟨data, o, i, seen, hresult, hcalls, hfound, hseen, hstatus, hwritten .small rfl⟩

/-- A wait is no longer than thirty years: an interval of forty goes twice into a timeout of a
hundred, and yet there are three waits before the timeout, of thirty years each, for an operation
that takes nine. -/
theorem create_waits_at_most_thirty_years : ∃ y u,
    exec ((inMemory ⟨.ofSeconds 1261440000, .ofSeconds 3153600000⟩ (some "lab")).perform
      .create .small)
        (World.start { Mock.new with pendingPolls := 9 } .empty) = (.ok y, u) ∧
      (Duration.ofSeconds 3153600000).nanos / (Duration.ofSeconds 1261440000).nanos = 2 ∧
      y.result = .error (.operationTimeout "operation-insert-2" (.ofSeconds 2838240000) 4
        (some ⟨"operation-insert-2", "insert", .running, "worker-0", none⟩)) ∧
      u.world.compute.callCount Method.getOperation.name = 4 := by
  obtain ⟨y, hrun, hresult⟩ := Outcome.exists_of_error
    (r := exec ((inMemory ⟨.ofSeconds 1261440000, .ofSeconds 3153600000⟩ (some "lab")).perform
      .create .small)
      (World.start { Mock.new with pendingPolls := 9 } .empty))
    (e := .operationTimeout "operation-insert-2" (.ofSeconds 2838240000) 4
      (some ⟨"operation-insert-2", "insert", .running, "worker-0", none⟩)) (by decide +kernel)
  exact ⟨y, _, hrun, by decide, hresult, by decide +kernel⟩

end Collaborators
end Provision
