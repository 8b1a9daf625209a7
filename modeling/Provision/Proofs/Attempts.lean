import Provision.Proofs.Budget

/-!
How many checks a poll makes. From one to the next the clock goes on by the pace at least, and none
follows when an interval more would go beyond the timeout, so that there are no more than waits that
fit and one. The number that is given out for them is cut to 32 bits, and bounds them as long as
nothing is lost by that.
-/
namespace Provision

open Timed

namespace PollConfig

variable {c : PollConfig}

theorem exists_maxAttempts (hpositive : 0 < c.interval.nanos)
    (hcount : c.timeout.nanos / c.interval.nanos < attemptLimit) :
    ∃ n, c.maxAttempts = .ok n ∧ n.toNat = c.timeout.nanos / c.interval.nanos + 1 := by
  have hlimit : attemptLimit = 2 ^ 32 - 1 := rfl
  have hwaits : (UInt32.ofNat (c.timeout.nanos / c.interval.nanos)).toNat =
      c.timeout.nanos / c.interval.nanos := by
    rw [UInt32.toNat_ofNat']
    exact Nat.mod_eq_of_lt (by omega)
  refine ⟨.ofNat (c.timeout.nanos / c.interval.nanos) + 1, ?_, ?_⟩
  · rw [maxAttempts, if_neg (Nat.ne_of_gt hpositive)]
    simp only [hwaits]
    exact if_neg (Nat.ne_of_lt hcount)
  · rw [UInt32.toNat_add, UInt32.toNat_one, hwaits]
    exact Nat.mod_eq_of_lt (by omega)

/-- So many checks fit: an interval after each but the last, none of which begins before the pace
allows, the deadline is not reached. -/
def HasRoom (c : PollConfig) (now deadline : Instant) (n : Nat) : Prop :=
  ∀ k, k + 2 ≤ n → now.nanos + k * c.pace + c.interval.nanos ≤ deadline.nanos

theorem HasRoom.single (c : PollConfig) (now deadline : Instant) {n : Nat} (h : n ≤ 1) :
    c.HasRoom now deadline n :=
  fun _ hk => absurd (Nat.le_trans hk h) (by omega)

/-- A further check in front. -/
theorem HasRoom.cons {now next deadline : Instant} {n : Nat} (h : c.HasRoom next deadline n)
    (hroom : now.nanos + c.interval.nanos ≤ deadline.nanos)
    (hpace : now.nanos + c.pace ≤ next.nanos) :
    c.HasRoom now deadline (n + 1) := by
  intro k hk
  cases k with
  | zero => omega
  | succ k =>
    have hnext := h k (by omega)
    rw [Nat.succ_mul]
    omega

theorem HasRoom.le_waits {now : Instant} {n : Nat} (hpositive : 0 < c.interval.nanos)
    (h : c.HasRoom now (now.after c.timeout) n) : n ≤ c.waits + 1 := by
  refine Nat.not_lt.mp fun hlt => ?_
  obtain ⟨k, rfl⟩ : ∃ k, n = k + 2 := ⟨n - 2, by omega⟩
  have hlast := h k (Nat.le_refl _)
  have hlate := (c.timeout_lt_iff hpositive k).mpr (by omega)
  rw [Instant.nanos_after] at hlast
  omega

/-- How many checks there may be: no more than can be counted, than waits fit and one, and, for
intervals that are waited for as a whole and as long as the quotient can be counted, than the number
given out. -/
structure Admits (c : PollConfig) (n : Nat) : Prop where
  counted : n ≤ attemptLimit
  waited : n ≤ c.waits + 1
  most : c.interval.nanos ≤ longestSleep.nanos → c.timeout.nanos / c.interval.nanos < attemptLimit →
    ∃ most, c.maxAttempts = .ok most ∧ n ≤ most.toNat

theorem HasRoom.admits {now : Instant} {n : Nat} (hpositive : 0 < c.interval.nanos)
    (h : c.HasRoom now (now.after c.timeout) n) (hcounted : n ≤ attemptLimit) : c.Admits n where
  counted := hcounted
  waited := h.le_waits hpositive
  most hlongest hcount := by
    obtain ⟨most, hmost, hn⟩ := exists_maxAttempts hpositive hcount
    refine ⟨most, hmost, ?_⟩
    rw [hn, ← waits_eq_div hpositive hlongest]
    exact h.le_waits hpositive

end PollConfig

section Counting

variable {ω α ε : Type} {c : PollConfig} {check : Timed ω (Except ε (Progress α))}

/-- The checks begun from `t` to `u`, of `fuel` that may be made. -/
def Began (c : PollConfig) (deadline : Instant) (fuel : Nat)
    (t u : Timeline (List Instant × ω)) : Prop :=
  ∃ begun, u.world.1 = t.world.1 ++ begun ∧ begun.length ≤ fuel ∧
    c.HasRoom t.now deadline begun.length

theorem Began.none {deadline : Instant} {fuel : Nat} {t : Timeline (List Instant × ω)} :
    Began c deadline fuel t t :=
  ⟨[], (List.append_nil _).symm, Nat.zero_le _, .single _ _ _ (Nat.zero_le _)⟩

theorem Began.one {deadline : Instant} {fuel : Nat} {t u : Timeline (List Instant × ω)}
    (h : u.world.1 = t.world.1 ++ [t.now]) : Began c deadline (fuel + 1) t u :=
  ⟨[t.now], h, Nat.succ_le_succ (Nat.zero_le _), .single _ _ _ (Nat.le_refl _)⟩

theorem Began.cons {deadline : Instant} {fuel : Nat} {t u v : Timeline (List Instant × ω)}
    (h : Began c deadline fuel u v) (hu : u.world.1 = t.world.1 ++ [t.now])
    (hroom : t.now.nanos + c.interval.nanos ≤ deadline.nanos)
    (hpace : t.now.nanos + c.pace ≤ u.now.nanos) :
    Began c deadline (fuel + 1) t v := by
  obtain ⟨begun, hv, hfuel, hbegun⟩ := h
  refine ⟨t.now :: begun, ?_, Nat.succ_le_succ hfuel, hbegun.cons hroom hpace⟩
  rw [hv, hu, List.append_assoc]
  rfl

/-- Checks during which the clock does not go back. -/
theorem pollFrom_began (hcheck : ∀ t, Ends never check t fun _ u => t.now.nanos ≤ u.now.nanos)
    (started deadline : Instant) (fuel attempts : Nat) (t : Timeline (List Instant × ω)) :
    Ends (fun _ u => Began c deadline fuel t u)
      (pollFrom c (Checks.dated check) started deadline fuel attempts) t
      fun _ u => Began c deadline fuel t u := by
  induction fuel generalizing attempts t with
  | zero => exact .halts (exec_halt .attempts t) .none
  | succ fuel ih =>
    have hdated : Ends never (Checks.dated check) t fun _ u =>
        u.world.1 = t.world.1 ++ [t.now] ∧ t.now.nanos ≤ u.now.nanos := by
      refine (Checks.dated_ends fun u hn _ => hn ▸ hcheck u).weaken ?_
      rintro _ u ⟨hu, v, hv, hnow, _⟩
      exact ⟨hu, hnow ▸ hv⟩
    refine pollFrom_ends_of_round hdated ?_ ?_ ?_ ?_ ?_
    · exact fun _ _ hu => .one hu.1
    · exact fun _ _ hu => .one hu.1
    · exact fun _ _ hu _ => .one hu.1
    · exact fun _ _ hu _ => .one hu.1
    · rintro a u v ⟨hu, hnow⟩ hroom hv hw
      have hwake := nanos_add_min_le_wake u.now c.interval
      have hpace : t.now.nanos + c.pace ≤ v.now.nanos := by
        rw [hv]
        unfold PollConfig.pace
        omega
      have hgrow : ∀ z, Began c deadline fuel v z → Began c deadline (fuel + 1) t z :=
        fun z hz => hz.cons (hw ▸ hu) (by omega) hpace
      exact (ih (attempts + 1) v).mono (fun _ z => hgrow z) fun _ z => hgrow z

/-- However long its checks take and whatever they see, and wherever it halts, polling makes no more
of them than its settings admit. -/
theorem poll_admitted (hpositive : 0 < c.interval.nanos)
    (hcheck : ∀ t, Ends never check t fun _ u => t.now.nanos ≤ u.now.nanos)
    (t : Timeline (List Instant × ω)) :
    Ends (fun _ u => ∃ begun, u.world.1 = t.world.1 ++ begun ∧ c.Admits begun.length)
      (poll c (Checks.dated check)) t
      fun _ u => ∃ begun, u.world.1 = t.world.1 ++ begun ∧ c.Admits begun.length := by
  have hadmits : ∀ u, Began c (t.now.after c.timeout) PollConfig.attemptLimit t u →
      ∃ begun, u.world.1 = t.world.1 ++ begun ∧ c.Admits begun.length :=
    fun u ⟨begun, hu, hcounted, hroom⟩ => ⟨begun, hu, hroom.admits hpositive hcounted⟩
  refine poll_ends_of_rounds (fun _ => hadmits t .none) fun _ => ?_
  exact (pollFrom_began hcheck t.now _ _ 0 t).mono (fun _ u => hadmits u) fun _ u => hadmits u

theorem poll_admitted_soonDone :
    0 < defaultPollInterval.nanos ∧
      (∀ t, Ends never Checks.soonDone.replay t fun _ u => t.now.nanos ≤ u.now.nanos) ∧
      defaultPollInterval.nanos ≤ longestSleep.nanos ∧
      defaultPollTimeout.nanos / defaultPollInterval.nanos < PollConfig.attemptLimit ∧
      (default : PollConfig).maxAttempts = .ok 37 ∧
      Ends (fun _ u => u.world.1.length ≤ 37) (poll default (Checks.dated Checks.soonDone.replay))
        ⟨.start, #[], ([], 0)⟩ fun _ u => u.world.1.length ≤ 37 := by
  have hpositive : 0 < defaultPollInterval.nanos := by decide
  have hcheck : ∀ t, Ends never Checks.soonDone.replay t fun _ u => t.now.nanos ≤ u.now.nanos := by
    intro t
    refine (Checks.soonDone.replay_madeBy t.world t rfl).weaken ?_
    rintro _ u ⟨_, hu, _⟩
    rw [hu]
    exact Nat.le_add_right _ _
  have hlongest : defaultPollInterval.nanos ≤ longestSleep.nanos := by decide
  have hcount : defaultPollTimeout.nanos / defaultPollInterval.nanos < PollConfig.attemptLimit := by
    decide
  have hmost : ∀ u : Timeline (List Instant × Nat),
      (∃ begun, u.world.1 = [] ++ begun ∧ (default : PollConfig).Admits begun.length) →
        u.world.1.length ≤ 37 := by
    rintro u ⟨begun, hu, hadmits⟩
    obtain ⟨most, hmost, hn⟩ := hadmits.most hlongest hcount
    cases hmost
    rw [hu]
    exact hn
  exact ⟨hpositive, hcheck, hlongest, hcount, rfl,
    (poll_admitted (c := default) hpositive hcheck ⟨.start, #[], ([], 0)⟩).mono (fun _ u => hmost u)
      fun _ u => hmost u⟩

/-- In a timeout of 2³² intervals the quotient loses all that it has: one check is given out, and
three are made. -/
theorem maxAttempts_cut :
    (⟨.ofMillis 1, .ofMillis 4294967296⟩ : PollConfig).maxAttempts = .ok 1 ∧
      (exec (poll ⟨.ofMillis 1, .ofMillis 4294967296⟩ (Checks.dated Checks.soonDone.replay))
        ⟨.start, #[], ([], 0)⟩).2.world.1.length = 3 := by
  decide +kernel

end Counting
end Provision
