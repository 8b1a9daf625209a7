import Provision.Poll
import Provision.Proofs.Timeline

/-!
What polling comes to. The outcome follows from the list of the checks made, and polling halts only
where the clock or the count of the checks cannot go on.
-/
namespace Provision

open Timed

namespace PollConfig

/-- The least time from one check to the next. -/
def pace (c : PollConfig) : Nat := min c.interval.nanos longestSleep.nanos

/-- The least time from a check to the next when it begins at a whole millisecond. All but the first
do, because waits end there. -/
def wholePace (c : PollConfig) : Nat := (Instant.roundUp ⟨c.pace⟩).nanos

/-- The least time in which so many checks are made and waited for. -/
def least (c : PollConfig) : Nat → Nat
  | 0 => 0
  | n + 1 => c.pace + n * c.wholePace

/-- Why polling may halt, and when: the clock cannot hold one of the durations any more, or the
timeout has room for as many checks as can be counted, each waited for. -/
def Stops (c : PollConfig) : Halt → Instant → Prop
  | .clock, now => Instant.bound ≤ now.nanos + max c.interval.nanos c.timeout.nanos
  | .attempts, _ => c.least (attemptLimit - 1) + c.interval.nanos ≤ c.timeout.nanos

-- Three minutes have no room for that, however short the interval is.
example (now : Instant) : ¬(⟨⟨1⟩, defaultPollTimeout⟩ : PollConfig).Stops .attempts now :=
  Nat.not_le.mpr (by decide)

end PollConfig

theorem nanos_add_min_le_wake (t : Instant) (d : Duration) :
    t.nanos + min d.nanos longestSleep.nanos ≤ (wake t d).nanos := by
  unfold wake
  refine Nat.le_trans ?_ (Instant.nanos_le_roundUp _)
  split
  · rw [Instant.nanos_after]
    omega
  · rw [Instant.nanos_after]
    omega

theorem wake_le_nanos_add_min (t : Instant) (d : Duration) :
    (wake t d).nanos ≤ t.nanos + min d.nanos longestSleep.nanos + 999999 := by
  unfold wake
  split
  · simp only [Instant.roundUp, Instant.nanos_after]
    omega
  · simp only [Instant.roundUp, Instant.nanos_after]
    omega

/-- A whole number of milliseconds since the start. -/
def Instant.IsWhole (n : Instant) : Prop := n.nanos % 1000000 = 0

/-- A whole number of milliseconds. -/
def Duration.IsWhole (d : Duration) : Prop := d.nanos % 1000000 = 0

theorem Instant.isWhole_roundUp (n : Instant) : n.roundUp.IsWhole := by
  simp only [IsWhole, roundUp, Nat.mul_mod_left]

/-- From one whole millisecond to another it is a whole number of them. -/
theorem Instant.IsWhole.add_roundUp_le {t v : Instant} {n : Nat} (ht : t.IsWhole) (hv : v.IsWhole)
    (h : t.nanos + n ≤ v.nanos) : t.nanos + (roundUp ⟨n⟩).nanos ≤ v.nanos := by
  simp only [IsWhole, roundUp] at *
  omega

theorem Instant.IsWhole.after {t : Instant} {d : Duration} (ht : t.IsWhole) (hd : d.IsWhole) :
    (t.after d).IsWhole := by
  simp only [IsWhole, Duration.IsWhole, nanos_after] at *
  omega

theorem Timed.isWhole_wake (n : Instant) (d : Duration) : (wake n d).IsWhole := by
  unfold wake
  exact Instant.isWhole_roundUp _

/-- Between whole milliseconds a wait is as long as it was to be, up to the longest. -/
theorem wake_of_isWhole {t : Instant} {d : Duration} (ht : t.IsWhole) (hd : d.IsWhole) :
    wake t d = t.after ⟨min d.nanos longestSleep.nanos⟩ := by
  have hlongest : longestSleep.IsWhole := rfl
  unfold wake
  split
  next h =>
    rw [Instant.roundUp_eq_self (ht.after hlongest), Nat.min_eq_right (Nat.le_of_lt h)]
  next h =>
    rw [Instant.roundUp_eq_self (ht.after hd), Nat.min_eq_left (Nat.not_lt.mp h)]

/-- What a list of checks comes to: all but the last saw nothing done. -/
inductive PollOutcome {α ε : Type} :
    List (Except ε (Progress α)) → Except (PollError α ε) (α × Nat) → Prop
  | done (as : List α) (a : α) :
      PollOutcome (as.map (.ok ∘ .pending) ++ [.ok (.done a)]) (.ok (a, as.length + 1))
  | aborted (as : List α) (e : ε) :
      PollOutcome (as.map (.ok ∘ .pending) ++ [.error e]) (.error (.aborted e))
  | timeout (as : List α) (a : α) (elapsed : Duration) :
      PollOutcome (as.map (.ok ∘ .pending) ++ [.ok (.pending a)])
        (.error (.timeout elapsed (as.length + 1) a))

theorem PollOutcome.ne_nil {α ε : Type} {rs : List (Except ε (Progress α))}
    {x : Except (PollError α ε) (α × Nat)} (h : PollOutcome rs x) : rs ≠ [] := by
  cases h <;> simp

section Poll

variable {ω α ε : Type} {c : PollConfig} {check : Timed ω (Except ε (Progress α))}
  {R : List (Except ε (Progress α)) → ω → Prop} {stop : Halt → Timeline ω → Prop} {t : Timeline ω}

theorem ends_later {s : Instant} {d : Duration} {Q : Instant → Timeline ω → Prop}
    (hq : (s.after d).nanos < Instant.bound → Q (s.after d) t)
    (hs : Instant.bound ≤ s.nanos + d.nanos → stop .clock t) : Ends stop (later s d) t Q := by
  unfold later
  split
  next h => exact ends_pure (hq h)
  next h => exact .halts (exec_halt .clock t) (hs (Nat.not_lt.mp h))

/-- One round: a check, and when it sees nothing done, either the last wait is over or there is
another wait and then the rounds that remain. -/
theorem pollFrom_ends_of_round {started deadline : Instant} {fuel attempts : Nat}
    {P : Except ε (Progress α) → Timeline ω → Prop}
    {Q : Except (PollError α ε) (α × Nat) → Timeline ω → Prop} (hcheck : Ends never check t P)
    (haborted : ∀ e u, P (.error e) u → Q (.error (.aborted e)) u)
    (hdone : ∀ a u, P (.ok (.done a)) u → Q (.ok (a, attempts + 1)) u)
    (hclock : ∀ a u, P (.ok (.pending a)) u → Instant.bound ≤ u.now.nanos + c.interval.nanos →
      stop .clock u)
    (htimeout : ∀ a u, P (.ok (.pending a)) u → deadline.nanos < u.now.nanos + c.interval.nanos →
      Q (.error (.timeout (u.now.since started) (attempts + 1) a)) u)
    (hnext : ∀ a u v, P (.ok (.pending a)) u → u.now.nanos + c.interval.nanos ≤ deadline.nanos →
      v.now = wake u.now c.interval → v.world = u.world →
      Ends stop (pollFrom c check started deadline fuel (attempts + 1)) v Q) :
    Ends stop (pollFrom c check started deadline (fuel + 1) attempts) t Q := by
  unfold pollFrom
  refine ends_bind hcheck.of_never fun r u hr => ?_
  match r with
  | .error e => exact ends_pure (haborted e u hr)
  | .ok (.done a) => exact ends_pure (hdone a u hr)
  | .ok (.pending a) =>
    refine ends_bind ends_now ?_
    rintro _ _ ⟨rfl, rfl⟩
    refine ends_bind (Q := fun n v => u.now.after c.interval = n ∧ u = v)
      (ends_later (fun _ => ⟨rfl, rfl⟩) fun h => hclock a u hr h) ?_
    rintro _ _ ⟨rfl, rfl⟩
    split
    next hd => exact ends_pure (htimeout a u hr hd)
    next hd =>
      refine ends_bind ends_log fun _ v hv => ?_
      refine ends_bind ends_sleep fun _ w hw => ?_
      rw [hv.1, hv.2] at hw
      exact hnext a u w hr (Nat.not_lt.mp hd) hw.1 hw.2

/-- Polling makes its rounds once the clock has room for the timeout. -/
theorem poll_ends_of_rounds {Q : Except (PollError α ε) (α × Nat) → Timeline ω → Prop}
    (hclock : Instant.bound ≤ t.now.nanos + c.timeout.nanos → stop .clock t)
    (h : t.now.nanos + c.timeout.nanos < Instant.bound →
      Ends stop (pollFrom c check t.now (t.now.after c.timeout) PollConfig.attemptLimit 0) t Q) :
    Ends stop (poll c check) t Q := by
  unfold poll
  refine ends_bind ends_now ?_
  rintro _ _ ⟨rfl, rfl⟩
  refine ends_bind (Q := fun n v => t.now.nanos + c.timeout.nanos < Instant.bound ∧
    t.now.after c.timeout = n ∧ t = v)
    (ends_later (fun hroom => ⟨hroom, rfl, rfl⟩) hclock) ?_
  rintro _ _ ⟨hroom, rfl, rfl⟩
  exact h hroom

theorem PollConfig.mul_pace_le_least (c : PollConfig) (n : Nat) : n * c.pace ≤ c.least n := by
  cases n with
  | zero => exact Nat.le_of_eq (Nat.zero_mul _)
  | succ n =>
    have hwhole : n * c.pace ≤ n * c.wholePace :=
      Nat.mul_le_mul_left n (Instant.nanos_le_roundUp ⟨c.pace⟩)
    rw [Nat.succ_mul, Nat.add_comm]
    exact Nat.add_le_add_left hwhole _

/-- The count of the checks can come to its end only in a timeout that has room for as many
waits. -/
theorem PollConfig.Stops.mul_pace_le {now : Instant} (h : c.Stops .attempts now) :
    attemptLimit * c.pace ≤ c.timeout.nanos := by
  have hstops : c.least (attemptLimit - 1) + c.interval.nanos ≤ c.timeout.nanos := h
  have hleast := c.mul_pace_le_least (attemptLimit - 1)
  have hinterval : c.pace ≤ c.interval.nanos := Nat.min_le_left _ _
  have hlimit : attemptLimit = (attemptLimit - 1) + 1 := rfl
  rw [hlimit, Nat.succ_mul]
  omega

/-- So many checks were made from the start and waited for, and none of the waits went beyond the
deadline. -/
structure PollConfig.Waited (c : PollConfig) (started deadline : Instant) (k : Nat)
    (now : Instant) : Prop where
  least : started.nanos + c.least k ≤ now.nanos
  whole : 0 < k → now.IsWhole
  room : ∀ n, k = n + 1 → started.nanos + c.least n + c.interval.nanos ≤ deadline.nanos

theorem PollConfig.waited_zero (c : PollConfig) (started deadline : Instant) :
    c.Waited started deadline 0 started where
  least := Nat.le_refl _
  whole := nofun
  room := nofun

/-- A further check, during which the clock does not go back, and the wait after it. -/
theorem PollConfig.Waited.wake {started deadline now now' : Instant} {k : Nat}
    (h : c.Waited started deadline k now) (hnow : now.nanos ≤ now'.nanos)
    (hroom : now'.nanos + c.interval.nanos ≤ deadline.nanos) :
    c.Waited started deadline (k + 1) (wake now' c.interval) where
  least := by
    have hleast := h.least
    have hpace : now'.nanos + c.pace ≤ (Timed.wake now' c.interval).nanos :=
      nanos_add_min_le_wake ..
    cases k with
    | zero =>
      simp only [PollConfig.least, Nat.zero_mul] at hleast ⊢
      omega
    | succ n =>
      have hwhole : now.nanos + c.wholePace ≤ (Timed.wake now' c.interval).nanos :=
        (h.whole n.succ_pos).add_roundUp_le (isWhole_wake _ _) (by omega)
      simp only [PollConfig.least, Nat.succ_mul] at hleast ⊢
      omega
  whole _ := isWhole_wake _ _
  room := by
    intro n hn
    obtain rfl : k = n := Nat.succ.inj hn
    have hleast := h.least
    omega

/-- The invariant `R` relates the checks so far to the world they leave. Where polling halts, no
check has seen it done, and when the count is at its end, as many were made as can be counted. -/
theorem pollFrom_ends
    (hcheck : ∀ rs t, R rs t.world →
      Ends never check t fun r u => R (rs ++ [r]) u.world ∧ t.now.nanos ≤ u.now.nanos)
    (started : Instant) (fuel : Nat) (as : List α)
    (hcount : as.length + fuel = PollConfig.attemptLimit) (t : Timeline ω)
    (ht : R (as.map (.ok ∘ .pending)) t.world)
    (hwaited : c.Waited started (started.after c.timeout) as.length t.now) :
    Ends (fun e u => c.Stops e u.now ∧ ∃ as : List α,
        (e = .attempts → as.length = PollConfig.attemptLimit) ∧ R (as.map (.ok ∘ .pending)) u.world)
      (pollFrom c check started (started.after c.timeout) fuel as.length) t
      fun x u => ∃ rs, PollOutcome rs x ∧ R rs u.world := by
  have hadd :
      ∀ (as : List α) (a : α), (as ++ [a]).map (.ok ∘ .pending : α → Except ε (Progress α)) =
      as.map (.ok ∘ .pending) ++ [.ok (.pending a)] := fun as a => List.map_append
  -- `as` are the states seen so far; each check adds one, takes one from the fuel and some of the
  -- time left.
  induction fuel generalizing as t with
  | zero =>
    have hstops : c.Stops .attempts t.now := by
      have hroom := hwaited.room (PollConfig.attemptLimit - 1) hcount
      rw [Instant.nanos_after] at hroom
      change c.least (PollConfig.attemptLimit - 1) + c.interval.nanos ≤ c.timeout.nanos
      omega
    exact .halts (exec_halt .attempts t) ⟨hstops, as, fun _ => hcount, ht⟩
  | succ fuel ih =>
    refine pollFrom_ends_of_round (hcheck _ t ht) ?_ ?_ ?_ ?_ ?_
    · exact fun e u hr => ⟨_, .aborted as e, hr.1⟩
    · exact fun a u hr => ⟨_, .done as a, hr.1⟩
    · intro a u ⟨hr, _⟩ hc
      have hstops : c.Stops .clock u.now := by
        change Instant.bound ≤ u.now.nanos + max c.interval.nanos c.timeout.nanos
        omega
      exact ⟨hstops, as ++ [a], nofun, hadd as a ▸ hr⟩
    · exact fun a u hr _ => ⟨_, .timeout as a _, hr.1⟩
    · intro a u w ⟨hr, hu⟩ hroom hn hw
      have hlength : (as ++ [a]).length = as.length + 1 := List.length_append
      have hwaited' : c.Waited started (started.after c.timeout) (as ++ [a]).length w.now := by
        rw [hlength, hn]
        exact hwaited.wake hu hroom
      have hloop := ih (as ++ [a]) (by omega) w (by rwa [hw, hadd]) hwaited'
      rwa [hlength] at hloop

/-- Polling that is not done in time has made a check at least, and polling that comes to the end of
its count has made as many as can be counted. -/
theorem poll_ends (hcheck : ∀ rs t, R rs t.world →
      Ends never check t fun r u => R (rs ++ [r]) u.world ∧ t.now.nanos ≤ u.now.nanos)
    (ht : R [] t.world) :
    Ends (fun e u => c.Stops e u.now ∧ ∃ as : List α,
        (e = .attempts → as.length = PollConfig.attemptLimit) ∧ R (as.map (.ok ∘ .pending)) u.world)
      (poll c check) t fun x u => ∃ rs, PollOutcome rs x ∧ R rs u.world := by
  refine poll_ends_of_rounds (fun hc => ⟨?_, [], nofun, ht⟩) fun _ => ?_
  · change Instant.bound ≤ t.now.nanos + max c.interval.nanos c.timeout.nanos
    omega
  · exact pollFrom_ends hcheck t.now _ [] (Nat.zero_add _) t ht (c.waited_zero _ _)

end Poll
end Provision
