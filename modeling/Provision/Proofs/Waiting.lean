import Provision.Proofs.Budget

/-!
How waiting for an operation ends. It is looked at again and again, and the first reply that is an
error, or an operation that is done, decides; the faults of one that is not done are of no account.
When no reply decides before the deadline, the last one is handed back.
-/
namespace Provision

open Timed

/-- Looks at an operation, counted from zero: how long each takes, and what is replied. -/
structure Lookups where
  takes : Nat → Duration
  replies : Nat → Except ComputeError Operation

namespace Lookups

variable {σ : Type} (l : Lookups) (c : PollConfig) (started : Instant)
  (project zone operation : String)

/-- The looks as checks of a poll. -/
def checks : Checks Operation ComputeError := ⟨l.takes, fun n => Service.progress (l.replies n)⟩

/-- The service gives these replies, a further one each time; `made n` is how it is after `n` of
them. -/
def GivenBy (s : Service σ) (made : Nat → σ → Prop) : Prop :=
  ∀ n t, made n t.world → Ends never (s (.getOperation project zone operation)) t fun r u =>
    r = l.replies n ∧ u.now = t.now.after (l.takes n) ∧ made (n + 1) u.world

/-- The service that gives these replies, and keeps count of them. -/
def service : Service Nat
  | .getOperation .. => do
    let n ← Timed.world
    Timed.setWorld (n + 1)
    modifyThe (Timeline Nat) fun t => { t with now := t.now.after (l.takes n) }
    return l.replies n
  | _ => return .error (.ofKind .other "only operations can be had")

/-- The `n`-th reply is an error or an operation that is done. -/
def Decides (n : Nat) : Prop := ∀ o, l.replies n = .ok o → o.state = .done

/-- An interval after the `n`-th reply the deadline has passed. -/
def Late (n : Nat) : Prop :=
  started.nanos + c.timeout.nanos < (l.checks.ended c started n).nanos + c.interval.nanos

/-- The `n`-th look is made: no reply before decides, or comes too late for another look. -/
def Reaches (n : Nat) : Prop := ∀ k < n, ¬l.Decides k ∧ ¬l.Late c started k

/-- What waiting answers when the `n`-th look is the last. -/
def outcome (n : Nat) : Except ActuatorError Operation :=
  match l.replies n with
  | .error e =>
    let context := "failed to get operation " ++ operation ++ " in " ++ project ++ "/" ++ zone
    if e.kind = .notFound then .error (.notFound context e) else .error (.provider context e)
  | .ok o =>
    if o.state = .done then
      if o.faultList = [] then .ok o else .error (.operationFailed operation o.faultList)
    else .error (.operationTimeout operation ((l.checks.ended c started n).since started)
      (n + 1) (some o))

variable {l c started project zone operation} {s : Service σ} {made : Nat → σ → Prop} {n : Nat}

theorem service_givenBy : l.GivenBy project zone operation l.service fun n w => w = n := by
  rintro _ t rfl
  exact .answers (a := l.replies t.world) (u := ⟨t.now.after (l.takes t.world), t.log, t.world + 1⟩)
    rfl ⟨rfl, rfl, rfl⟩

theorem GivenBy.check (h : l.GivenBy project zone operation s made) :
    l.checks.MadeBy (s.check project zone operation) made := by
  intro n t hmade
  unfold Service.check
  refine ends_bind (h n t hmade) fun r u ⟨hr, hu, hw⟩ => ?_
  have hsees : l.checks.sees n = Service.progress r := congrArg Service.progress hr.symm
  rw [hsees]
  cases r with
  | error e => exact ends_pure ⟨rfl, hu, hw⟩
  | ok o => exact ends_bind ends_log fun _ v ⟨hv, hvw⟩ => ends_pure ⟨rfl, hv.trans hu, hvw ▸ hw⟩

theorem GivenBy.traced (h : l.GivenBy project zone operation s made) (es : List Exchange) :
    l.GivenBy project zone operation s.traced fun n p =>
      p.1 = es ++ Service.polls project zone operation ((List.range n).map l.replies) ∧
        made n p.2 := by
  rintro n t ⟨hes, hmade⟩
  obtain ⟨r, u, hrun, hr, hu, hw⟩ := (h n ⟨t.now, t.log, t.world.2⟩ hmade).returns
  refine .answers (Service.exec_traced hrun) ⟨hr, hu, ?_, hw⟩
  rw [hes, hr, List.range_succ, List.map_append, Service.polls, Service.polls, List.map_append,
    List.append_assoc]
  rfl

theorem decides_iff : l.Decides n ↔ ∀ o, l.checks.sees n ≠ .ok (.pending o) := by
  have hreply : ∀ r : Except ComputeError Operation,
      (∀ o, r = .ok o → o.state = .done) ↔ ∀ o, Service.progress r ≠ .ok (.pending o) := by
    rintro (e | o)
    · exact ⟨fun _ => nofun, fun _ => nofun⟩
    · by_cases h : o.state = .done <;> simp [Service.progress, Operation.isDone, h]
  exact hreply (l.replies n)

theorem isFinal_iff :
    l.checks.IsFinal c started n ↔ l.Reaches c started n ∧ (l.Decides n ∨ l.Late c started n) := by
  have hcloses : ∀ k, l.checks.Closes c started k ↔ l.Decides k ∨ l.Late c started k := by
    intro k
    rw [decides_iff]
    rfl
  constructor
  · intro h
    exact ⟨fun k hk => not_or.mp fun hor => h.first k hk ((hcloses k).mpr hor),
      (hcloses n).mp h.closes⟩
  · rintro ⟨hreaches, hor⟩
    exact ⟨(hcloses n).mpr hor, fun k hk h => not_or.mpr (hreaches k hk) ((hcloses k).mp h)⟩

theorem waited_answer : Service.waited project zone operation (l.checks.answer c started n) =
    l.outcome c started project zone operation n := by
  have hsees : l.checks.sees n = Service.progress (l.replies n) := rfl
  unfold Checks.answer outcome
  rw [hsees]
  rcases l.replies n with e | o
  · simp only [Service.progress, Service.waited, ActuatorError.ofCompute, ComputeError.isNotFound,
      decide_eq_true_eq]
    split <;> rfl
  · by_cases hdone : o.state = .done
    · simp only [Service.progress, Service.waited, Operation.isDone, hdone, decide_true,
        if_true, List.isEmpty_iff]
    · simp only [Service.progress, Service.waited, Operation.isDone, hdone, decide_false,
        Bool.false_eq_true, if_false]

section Waiting

variable {t : Timeline (List Exchange × σ)}

/-- Waiting ends with the first reply that decides, if that is had in time, and with the last one
otherwise, and asks no more after it. -/
theorem wait_decided (hgiven : l.GivenBy project zone operation s made)
    (hpositive : 0 < c.interval.nanos)
    (hcount : ∀ n, l.Reaches c t.now n → n < PollConfig.attemptLimit)
    (htimeout : t.now.nanos + c.timeout.nanos < Instant.bound)
    (hclock : ∀ n, l.Reaches c t.now n → ¬l.Decides n →
      (l.checks.ended c t.now n).nanos + c.interval.nanos < Instant.bound)
    (hmade : made 0 t.world.2) :
    ∃ i, l.Reaches c t.now i ∧ (l.Decides i ∨ l.Late c t.now i) ∧
      Ends never (s.traced.wait c project zone operation) t fun r u =>
        r = l.outcome c t.now project zone operation i ∧
          u.world.1 = t.world.1 ++ Service.polls project zone operation
            ((List.range (i + 1)).map l.replies) ∧
          made (i + 1) u.world.2 := by
  obtain ⟨i, hi⟩ : ∃ i, l.checks.IsFinal c t.now i :=
    Checks.exists_isFinal (PollConfig.pace_pos hpositive)
  obtain ⟨hreaches, hlast⟩ := isFinal_iff.mp hi
  refine ⟨i, hreaches, hlast, ?_⟩
  let made' : Nat → List Exchange × σ → Prop := fun n p =>
    p.1 = t.world.1 ++ Service.polls project zone operation ((List.range n).map l.replies) ∧
      made n p.2
  have hchecks : l.checks.MadeBy (s.traced.check project zone operation) made' :=
    (hgiven.traced t.world.1).check
  have hheld : ∀ o, l.checks.sees i = .ok (.pending o) →
      (l.checks.ended c t.now i).nanos + c.interval.nanos < Instant.bound :=
    fun o ho => hclock i hreaches fun hd => decides_iff.mp hd o ho
  have hpoll : ∀ v, v.now = t.now → v.world = t.world →
      Ends never (poll c (s.traced.check project zone operation)) v fun y u =>
        y = l.checks.answer c t.now i ∧ made' (i + 1) u.world := by
    intro v hn hw
    have hstart : made' 0 v.world := by
      rw [hw]
      exact ⟨(List.append_nil _).symm, hmade⟩
    rw [← hn] at hi htimeout hheld ⊢
    exact (Checks.poll_ends_of_isFinal (M := made') hi (fun n _ u _ => hchecks n u)
      (hcount i hreaches) htimeout hheld
      hstart).weaken fun y u hy => ⟨hy.1, hy.2.2⟩
  refine (Service.wait_ends_of_poll hpoll).weaken ?_
  rintro r u ⟨y, v, ⟨rfl, hv⟩, hr, hu⟩
  rw [hu]
  exact ⟨hr.trans waited_answer, hv⟩

/-- First something is found wrong with an operation that runs; when it is done, two other things
are. -/
def failing : Lookups where
  takes _ := ⟨1500⟩
  replies n := .ok <|
    if n = 0 then ⟨"op", "insert", .running, "worker-0", some [⟨"SLOW", "", "still at it"⟩]⟩
    else ⟨"op", "insert", .done, "worker-0",
      some [⟨"QUOTA", "", "no quota left"⟩, ⟨"STOCKOUT", "", "no machine left"⟩]⟩

theorem wait_decided_failing :
    failing.GivenBy "lab" "z" "op" failing.service (fun n w => w = n) ∧
      0 < defaultPollInterval.nanos ∧
      (∀ n, failing.Reaches default .start n → n < PollConfig.attemptLimit) ∧
      Instant.start.nanos + defaultPollTimeout.nanos < Instant.bound ∧
      (∀ n, failing.Reaches default .start n → ¬failing.Decides n →
        (failing.checks.ended default .start n).nanos + defaultPollInterval.nanos < Instant.bound) ∧
      Ends never (failing.service.traced.wait default "lab" "z" "op") ⟨.start, #[], ([], 0)⟩
        fun r u =>
          r = .error (.operationFailed "op"
            [⟨"QUOTA", "", "no quota left"⟩, ⟨"STOCKOUT", "", "no machine left"⟩]) ∧
            u.world.1 = Service.polls "lab" "z" "op" [failing.replies 0, failing.replies 1] := by
  have hdecides : failing.Decides 1 := fun o ho => by cases ho; rfl
  have hpending : ¬failing.Decides 0 := fun h => nomatch h _ rfl
  have htime : ¬failing.Late default .start 0 := by
    unfold Late
    decide
  have hle : ∀ n, failing.Reaches default .start n → n ≤ 1 := fun n hn =>
    Nat.not_lt.mp fun hlt => (hn 1 hlt).1 hdecides
  have hgiven : failing.GivenBy "lab" "z" "op" failing.service fun n w => w = n := service_givenBy
  have hpositive : 0 < defaultPollInterval.nanos := by decide
  have hcount : ∀ n, failing.Reaches default .start n → n < PollConfig.attemptLimit := fun n hn =>
    Nat.lt_of_le_of_lt (hle n hn) (by decide)
  have htimeout : Instant.start.nanos + defaultPollTimeout.nanos < Instant.bound := by decide
  have hclock : ∀ n, failing.Reaches default .start n → ¬failing.Decides n →
      (failing.checks.ended default .start n).nanos + defaultPollInterval.nanos <
        Instant.bound := by
    intro n hn hd
    match n, hle n hn with
    | 0, _ => decide
    | 1, _ => exact absurd hdecides hd
  have houtcome : failing.outcome default .start "lab" "z" "op" 1 = .error (.operationFailed "op"
      [⟨"QUOTA", "", "no quota left"⟩, ⟨"STOCKOUT", "", "no machine left"⟩]) := rfl
  obtain ⟨i, hreaches, hlast, hwait⟩ :=
    wait_decided (c := default) (t := ⟨.start, #[], ([], 0)⟩) hgiven hpositive hcount
      htimeout hclock rfl
  refine ⟨hgiven, hpositive, hcount, htimeout, hclock, ?_⟩
  have hne : i ≠ 0 := by
    rintro rfl
    exact hlast.elim hpending htime
  obtain rfl : i = 1 := Nat.le_antisymm (hle i hreaches) (Nat.pos_of_ne_zero hne)
  exact hwait.weaken fun r u hr => ⟨hr.1.trans houtcome, hr.2.1⟩

end Waiting

end Lookups
end Provision
