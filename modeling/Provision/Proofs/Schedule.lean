import Mathlib.Data.Nat.Find
import Provision.Proofs.Polling

/-!
When the checks of a poll are made. Checks that take known times begin at known instants, and the
first of them that is done, that fails, or after which one more wait would go beyond the timeout is
the last and gives the answer.
-/
namespace Provision

open Timed

/-- Checks one after the other, counted from zero: how long each takes, and what it sees. -/
structure Checks (α ε : Type) where
  takes : Nat → Duration
  sees : Nat → Except ε (Progress α)

namespace Checks

variable {ω α ε : Type} (s : Checks α ε) (c : PollConfig) (pause : Duration)

/-- The action makes these checks, a further one each time; `made n` is how the world is after `n`
of them. -/
def MadeBy (check : Timed ω (Except ε (Progress α))) (made : Nat → ω → Prop) : Prop :=
  ∀ n t, made n t.world → Ends never check t fun r u =>
    r = s.sees n ∧ u.now = t.now.after (s.takes n) ∧ made (n + 1) u.world

/-- How long after the first check the `n`-th begins, with a pause between each and the next. -/
def begins : Nat → Duration
  | 0 => ⟨0⟩
  | n + 1 => ⟨(begins n).nanos + (s.takes n).nanos + pause.nanos⟩

/-- How long after the beginning of the first check the `n`-th is over. -/
def finishes (n : Nat) : Duration := ⟨(s.begins pause n).nanos + (s.takes n).nanos⟩

/-- No check follows the `n`-th: it sees nothing pending, or one more wait goes beyond the
timeout. -/
def Concludes (n : Nat) : Prop :=
  (∀ a, s.sees n ≠ .ok (.pending a)) ∨
    c.timeout.nanos < (s.finishes pause n).nanos + c.interval.nanos

/-- The first check that no other follows. -/
structure IsLast (n : Nat) : Prop where
  concludes : s.Concludes c pause n
  first : ∀ k < n, ¬s.Concludes c pause k

/-- What polling answers when the `n`-th check is the last. -/
def verdict (n : Nat) : Except (PollError α ε) (α × Nat) :=
  match s.sees n with
  | .error e => .error (.aborted e)
  | .ok (.done a) => .ok (a, n + 1)
  | .ok (.pending a) => .error (.timeout (s.finishes pause n) (n + 1) a)

variable {s c pause}

theorem mul_le_begins (n : Nat) : n * pause.nanos ≤ (s.begins pause n).nanos := by
  induction n with
  | zero => omega
  | succ n ih =>
    rw [Nat.succ_mul]
    simp only [begins]
    omega

theorem begins_of_prompt (h : ∀ n, s.takes n = ⟨0⟩) (n : Nat) :
    (s.begins pause n).nanos = n * pause.nanos := by
  induction n with
  | zero => exact (Nat.zero_mul _).symm
  | succ n ih =>
    rw [Nat.succ_mul]
    simp only [begins, ih, h]
    omega

theorem isWhole_begins (hpause : pause.IsWhole) (htakes : ∀ n, (s.takes n).IsWhole) (n : Nat) :
    (s.begins pause n).IsWhole := by
  induction n with
  | zero => rfl
  | succ n ih =>
    have hn := htakes n
    simp only [Duration.IsWhole, begins] at *
    omega

/-- Between whole milliseconds each wait is a pause of one length. -/
theorem wake_finishes {started : Instant} (hstarted : started.IsWhole)
    (hinterval : c.interval.IsWhole) (htakes : ∀ n, (s.takes n).IsWhole)
    (hpause : pause.nanos = c.pace) (n : Nat) :
    wake (started.after (s.finishes pause n)) c.interval =
      started.after (s.begins pause (n + 1)) := by
  have hlongest : longestSleep.IsWhole := rfl
  have hwhole : pause.IsWhole := by
    simp only [Duration.IsWhole, PollConfig.pace] at *
    omega
  have hfinishes : (s.finishes pause n).IsWhole := by
    have hbegins := isWhole_begins hwhole htakes n
    have hn := htakes n
    simp only [Duration.IsWhole, finishes] at *
    omega
  rw [wake_of_isWhole (hstarted.after hfinishes) hinterval]
  simp only [Instant.after, finishes, begins, hpause, PollConfig.pace, Nat.add_assoc]

theorem not_concludes {n : Nat} (h : ¬s.Concludes c pause n) :
    (∃ a, s.sees n = .ok (.pending a)) ∧
      (s.finishes pause n).nanos + c.interval.nanos ≤ c.timeout.nanos := by
  obtain ⟨hsees, hroom⟩ := not_or.mp h
  exact ⟨Classical.not_forall_not.mp hsees, Nat.not_lt.mp hroom⟩

/-- A check that is made begins within the timeout. -/
theorem begins_le_timeout (hpause : pause.nanos ≤ c.interval.nanos) {n : Nat}
    (h : ∀ k < n, ¬s.Concludes c pause k) : (s.begins pause n).nanos ≤ c.timeout.nanos := by
  cases n with
  | zero => exact Nat.zero_le _
  | succ n =>
    have hroom := (not_concludes (h n (Nat.lt_succ_self n))).2
    simp only [finishes] at hroom
    simp only [begins]
    omega

/-- With a pause there is a last check, since the timeout runs out. -/
theorem exists_isLast (hpause : 0 < pause.nanos) : ∃ n, s.IsLast c pause n := by
  have hconcludes : ∃ n, s.Concludes c pause n := by
    refine ⟨c.timeout.nanos + 1, .inr ?_⟩
    have hlong : (c.timeout.nanos + 1) * 1 ≤ (c.timeout.nanos + 1) * pause.nanos :=
      Nat.mul_le_mul_left _ hpause
    have hbegins :
        (c.timeout.nanos + 1) * pause.nanos ≤ (s.begins pause (c.timeout.nanos + 1)).nanos :=
      mul_le_begins _
    simp only [finishes]
    omega
  classical
  exact ⟨Nat.find hconcludes, Nat.find_spec hconcludes, fun k hk => Nat.find_min hconcludes hk⟩

namespace IsLast

variable {i : Nat} (h : s.IsLast c pause i)

include h

theorem eq_of_concludes {n : Nat} (hn : n ≤ i) (hconcludes : s.Concludes c pause n) : n = i :=
  Nat.le_antisymm hn (Nat.not_lt.mp fun hlt => h.first n hlt hconcludes)

theorem unique {j : Nat} (h' : s.IsLast c pause j) : i = j := by
  obtain hle | hle := Nat.le_total i j
  · exact h'.eq_of_concludes hle h.concludes
  · exact (h.eq_of_concludes hle h'.concludes).symm

end IsLast

/-- If no check takes time and nothing is ever done, the timeout ends the checks. -/
theorem isLast_of_prompt (hpositive : 0 < c.interval.nanos) (htakes : ∀ n, s.takes n = ⟨0⟩)
    (hsees : ∀ n, ∃ a, s.sees n = .ok (.pending a)) :
    s.IsLast c c.interval (c.timeout.nanos / c.interval.nanos) := by
  have hconcludes : ∀ n, s.Concludes c c.interval n ↔
      c.timeout.nanos / c.interval.nanos < n + 1 := by
    intro n
    obtain ⟨a, ha⟩ := hsees n
    have hpending : ¬∀ a, s.sees n ≠ .ok (.pending a) := fun h => h a ha
    simp only [Concludes, hpending, false_or, finishes, begins_of_prompt htakes,
      htakes, Nat.add_zero]
    rw [Nat.div_lt_iff_lt_mul hpositive, Nat.succ_mul]
  exact ⟨(hconcludes _).mpr (Nat.lt_succ_self _), fun k hk h => by
    have hlt := (hconcludes k).mp h
    omega⟩

section Instants

variable (s c) (started : Instant)

/-- When the `n`-th check begins: the first at once, each other when a wait after the one before is
over. -/
def begun : Nat → Instant
  | 0 => started
  | n + 1 => wake ((begun n).after (s.takes n)) c.interval

/-- When the `n`-th check is over. -/
def ended (n : Nat) : Instant := (s.begun c started n).after (s.takes n)

/-- The `n`-th check has nothing pending, or an interval after it the deadline has passed. -/
def Closes (n : Nat) : Prop :=
  (∀ a, s.sees n ≠ .ok (.pending a)) ∨
    (started.after c.timeout).nanos < (s.ended c started n).nanos + c.interval.nanos

/-- The first check that closes. -/
structure IsFinal (n : Nat) : Prop where
  closes : s.Closes c started n
  first : ∀ k < n, ¬s.Closes c started k

/-- What polling answers after the `n`-th check. -/
def answer (n : Nat) : Except (PollError α ε) (α × Nat) :=
  match s.sees n with
  | .error e => .error (.aborted e)
  | .ok (.done a) => .ok (a, n + 1)
  | .ok (.pending a) => .error (.timeout ((s.ended c started n).since started) (n + 1) a)

variable {s c started}

theorem not_closes {n : Nat} (h : ¬s.Closes c started n) :
    (∃ a, s.sees n = .ok (.pending a)) ∧
      (s.ended c started n).nanos + c.interval.nanos ≤ (started.after c.timeout).nanos := by
  obtain ⟨hsees, hroom⟩ := not_or.mp h
  exact ⟨Classical.not_forall_not.mp hsees, Nat.not_lt.mp hroom⟩

theorem mul_pace_le_begun (n : Nat) : started.nanos + n * c.pace ≤ (s.begun c started n).nanos := by
  induction n with
  | zero => exact Nat.le_of_eq (by rw [Nat.zero_mul]; rfl)
  | succ n ih =>
    have hwake := nanos_add_min_le_wake ((s.begun c started n).after (s.takes n)) c.interval
    rw [Instant.nanos_after] at hwake
    rw [Nat.succ_mul]
    simp only [begun]
    unfold PollConfig.pace at *
    omega

/-- Some check closes, since the clock goes on to the deadline. -/
theorem exists_isFinal (hpace : 0 < c.pace) : ∃ n, s.IsFinal c started n := by
  have hcloses : ∃ n, s.Closes c started n := by
    refine ⟨c.timeout.nanos + 1, .inr ?_⟩
    have hlong : (c.timeout.nanos + 1) * 1 ≤ (c.timeout.nanos + 1) * c.pace :=
      Nat.mul_le_mul_left _ hpace
    have hbegun : started.nanos + (c.timeout.nanos + 1) * c.pace ≤
        (s.begun c started (c.timeout.nanos + 1)).nanos :=
      mul_pace_le_begun _
    simp only [ended, Instant.nanos_after]
    omega
  classical
  exact ⟨Nat.find hcloses, Nat.find_spec hcloses, fun k hk => Nat.find_min hcloses hk⟩

theorem IsFinal.eq_of_closes {i n : Nat} (h : s.IsFinal c started i) (hn : n ≤ i)
    (hcloses : s.Closes c started n) :
    n = i :=
  Nat.le_antisymm hn (Nat.not_lt.mp fun hlt => h.first n hlt hcloses)

/-- Where every wait is a pause of one length, the checks begin when they are to. -/
theorem begun_eq_after_begins {i : Nat}
    (hwake : ∀ n < i, wake (started.after (s.finishes pause n)) c.interval =
    started.after (s.begins pause (n + 1))) {n : Nat} (hn : n ≤ i) :
    s.begun c started n = started.after (s.begins pause n) := by
  induction n with
  | zero => rfl
  | succ n ih =>
    have hended : (started.after (s.begins pause n)).after (s.takes n) =
        started.after (s.finishes pause n) := by
      simp only [Instant.after, finishes, Nat.add_assoc]
    rw [begun, ih (Nat.le_of_succ_le hn), hended, hwake n hn]

end Instants

section Polling

variable {check : Timed ω (Except ε (Progress α))} {M : Nat → ω → Prop} {i : Nat}

/-- Polling from the `n`-th check on ends with the final one. The action need make each check only
at its instant. -/
theorem pollFrom_ends_of_checks {started : Instant} (hi : s.IsFinal c started i)
    (hcheck : ∀ n ≤ i, ∀ t, t.now = s.begun c started n → M n t.world →
      Ends never check t fun r u => r = s.sees n ∧ u.now = t.now.after (s.takes n) ∧
        M (n + 1) u.world)
    (htimeout : started.nanos + c.timeout.nanos < Instant.bound)
    (hclock : ∀ a, s.sees i = .ok (.pending a) →
      (s.ended c started i).nanos + c.interval.nanos < Instant.bound)
    (fuel : Nat) {n : Nat} (hn : n ≤ i) (hfuel : i < n + fuel) {t : Timeline ω}
    (hnow : t.now = s.begun c started n) (hmade : M n t.world) :
    Ends never (pollFrom c check started (started.after c.timeout) fuel n) t fun x u =>
      x = s.answer c started i ∧ u.now = s.ended c started i ∧ M (i + 1) u.world := by
  induction fuel generalizing n t with
  | zero => omega
  | succ fuel ih =>
    have hended : Ends never check t fun r u =>
        r = s.sees n ∧ u.now = s.ended c started n ∧ M (n + 1) u.world := by
      refine (hcheck n hn t hnow hmade).weaken fun r u ⟨hr, hu, hw⟩ => ⟨hr, ?_, hw⟩
      rw [hu, hnow, ended]
    refine pollFrom_ends_of_round hended ?_ ?_ ?_ ?_ ?_
    · rintro e u ⟨hsees, hu⟩
      obtain rfl := hi.eq_of_closes hn (.inl (by simp [← hsees]))
      refine ⟨?_, hu⟩
      simp only [answer, ← hsees]
    · rintro a u ⟨hsees, hu⟩
      obtain rfl := hi.eq_of_closes hn (.inl (by simp [← hsees]))
      refine ⟨?_, hu⟩
      simp only [answer, ← hsees]
    · rintro a u ⟨hsees, hu, _⟩ hlate
      rw [hu] at hlate
      by_cases hcloses : s.Closes c started n
      · obtain rfl := hi.eq_of_closes hn hcloses
        exact (Nat.not_lt.mpr hlate (hclock a hsees.symm)).elim
      · have hroom := (not_closes hcloses).2
        rw [Instant.nanos_after] at hroom
        omega
    · rintro a u ⟨hsees, hu, hw⟩ hlate
      rw [hu] at hlate
      obtain rfl := hi.eq_of_closes hn (.inr hlate)
      refine ⟨?_, hu, hw⟩
      simp only [answer, ← hsees, hu]
    · rintro a u v ⟨hsees, hu, hw⟩ hroom hv hvw
      rw [hu] at hroom hv
      have hlt : n < i := by
        refine Nat.lt_of_le_of_ne hn ?_
        rintro rfl
        obtain hdone | hlate := hi.closes
        · exact hdone a hsees.symm
        · omega
      exact ih hlt (by omega) hv (by rwa [hvw])

/-- Polling ends with the final check, and answers what that sees. -/
theorem poll_ends_of_isFinal {t : Timeline ω} (hi : s.IsFinal c t.now i)
    (hcheck : ∀ n ≤ i, ∀ u, u.now = s.begun c t.now n → M n u.world →
      Ends never check u fun r v => r = s.sees n ∧ v.now = u.now.after (s.takes n) ∧
        M (n + 1) v.world)
    (hcount : i < PollConfig.attemptLimit)
    (htimeout : t.now.nanos + c.timeout.nanos < Instant.bound)
    (hclock : ∀ a, s.sees i = .ok (.pending a) →
      (s.ended c t.now i).nanos + c.interval.nanos < Instant.bound)
    (hmade : M 0 t.world) :
    Ends never (poll c check) t fun x u =>
      x = s.answer c t.now i ∧ u.now = s.ended c t.now i ∧ M (i + 1) u.world := by
  refine poll_ends_of_rounds (fun h => absurd htimeout (Nat.not_lt.mpr h)) fun _ => ?_
  exact pollFrom_ends_of_checks hi hcheck htimeout hclock _ (Nat.zero_le i) (by omega) rfl hmade

/-- Polling with waits of one length ends with the last check, and answers what that sees. -/
theorem poll_ends_of_checks {t : Timeline ω} (hi : s.IsLast c pause i)
    (hcheck : ∀ n u, u.now = t.now.after (s.begins pause n) → M n u.world →
      Ends never check u fun r v => r = s.sees n ∧ v.now = u.now.after (s.takes n) ∧
        M (n + 1) v.world)
    (hwake : ∀ n < i, wake (t.now.after (s.finishes pause n)) c.interval =
      t.now.after (s.begins pause (n + 1)))
    (hcount : i < PollConfig.attemptLimit)
    (htimeout : t.now.nanos + c.timeout.nanos < Instant.bound)
    (hclock : ∀ a, s.sees i = .ok (.pending a) →
      t.now.nanos + (s.finishes pause i).nanos + c.interval.nanos < Instant.bound)
    (hmade : M 0 t.world) :
    Ends never (poll c check) t fun x u =>
      x = s.verdict pause i ∧ u.now = t.now.after (s.finishes pause i) ∧ M (i + 1) u.world := by
  have hended : ∀ n ≤ i, s.ended c t.now n = t.now.after (s.finishes pause n) := by
    intro n hn
    rw [ended, begun_eq_after_begins hwake hn]
    simp only [Instant.after, finishes, Nat.add_assoc]
  have hcloses : ∀ n ≤ i, (s.Closes c t.now n ↔ s.Concludes c pause n) := by
    intro n hn
    rw [Closes, Concludes, hended n hn, Instant.nanos_after, Instant.nanos_after, Nat.add_assoc,
      Nat.add_lt_add_iff_left]
  have hfinal : s.IsFinal c t.now i :=
    ⟨(hcloses i (Nat.le_refl i)).mpr hi.concludes, fun k hk h =>
      hi.first k hk ((hcloses k (Nat.le_of_lt hk)).mp h)⟩
  have hanswer : s.answer c t.now i = s.verdict pause i := by
    unfold answer verdict
    rw [hended i (Nat.le_refl i), Instant.since, Instant.nanos_after, Nat.add_sub_cancel_left]
  have hheld : ∀ a, s.sees i = .ok (.pending a) →
      (s.ended c t.now i).nanos + c.interval.nanos < Instant.bound := by
    rw [hended i (Nat.le_refl i)]
    exact hclock
  have hpoll := poll_ends_of_isFinal (M := M) hfinal
    (fun n hn u hu hw => hcheck n u (hu.trans (begun_eq_after_begins hwake hn)) hw) hcount
      htimeout hheld hmade
  rwa [hanswer, hended i (Nat.le_refl i)] at hpoll

end Polling

/-- The action that makes these checks, and keeps count of them. -/
def replay (s : Checks α ε) : Timed Nat (Except ε (Progress α)) := do
  let n ← Timed.world
  Timed.setWorld (n + 1)
  modifyThe (Timeline Nat) fun t => { t with now := t.now.after (s.takes n) }
  return s.sees n

theorem replay_madeBy (s : Checks α ε) : s.MadeBy s.replay fun n w => w = n := by
  rintro _ t rfl
  exact .answers (a := s.sees t.world) (u := ⟨t.now.after (s.takes t.world), t.log, t.world + 1⟩)
    rfl ⟨rfl, rfl, rfl⟩

/-- The action that also keeps the instants at which it begins. -/
def dated (check : Timed ω (Except ε (Progress α))) :
    Timed (List Instant × ω) (Except ε (Progress α)) := do
  let begun ← Timed.now
  Timed.update fun p => ((), (p.1 ++ [begun], p.2))
  Timed.within (·.2) (fun w p => (p.1, w)) check

theorem dated_ends {check : Timed ω (Except ε (Progress α))} {t : Timeline (List Instant × ω)}
    {Q : Except ε (Progress α) → Timeline ω → Prop}
    (h : ∀ u : Timeline ω, u.now = t.now → u.world = t.world.2 →
      Ends never check u Q) :
    Ends never (dated check) t fun r u => u.world.1 = t.world.1 ++ [t.now] ∧
      ∃ v, Q r v ∧ u.now = v.now ∧ u.world.2 = v.world := by
  unfold dated
  refine ends_bind ends_now ?_
  rintro _ _ ⟨rfl, rfl⟩
  refine ends_bind (ends_update _) fun _ u ⟨hu, hw⟩ => ?_
  obtain ⟨_, hw⟩ := Prod.mk.injEq .. ▸ hw
  refine (ends_within (h _ hu (congrArg (·.2) hw))).weaken fun r z ⟨v, hv, hz, hzw⟩ => ?_
  rw [hzw, hw]
  exact ⟨rfl, v, hv, hz, rfl⟩

/-- Polling whose waits are exact. It always comes to an end; its checks are those up to the first
that is done, that fails, or after which one more wait would go beyond the timeout, and they begin
when they should; and the answer is what the last of them gives. There are no more of them than
intervals in the timeout and one, none begins later than that, and if nothing is ever done and no
check takes time there are just so many. -/
theorem poll_exact {c : PollConfig} {s : Checks α ε} {check : Timed ω (Except ε (Progress α))}
    {made : Nat → ω → Prop} (hchecks : s.MadeBy check made) (hpositive : 0 < c.interval.nanos)
    (hcount : c.timeout.nanos / c.interval.nanos < PollConfig.attemptLimit)
    {t : Timeline (List Instant × ω)} (hexact : ∀ n, (∀ k ≤ n, ¬s.Concludes c c.interval k) →
      wake (t.now.after (s.finishes c.interval n)) c.interval =
        (t.now.after (s.finishes c.interval n)).after c.interval)
    (htimeout : t.now.nanos + c.timeout.nanos < Instant.bound)
    (hclock : ∀ n a, (∀ k < n, ¬s.Concludes c c.interval k) → s.sees n = .ok (.pending a) →
      t.now.nanos + (s.finishes c.interval n).nanos + c.interval.nanos < Instant.bound)
    (hmade : made 0 t.world.2) :
    ∃ i, s.IsLast c c.interval i ∧ i ≤ c.timeout.nanos / c.interval.nanos ∧
      (∀ k ≤ i, (s.begins c.interval k).nanos ≤ c.timeout.nanos) ∧
      Ends never (poll c (dated check)) t (fun x u =>
        x = s.verdict c.interval i ∧ u.now = t.now.after (s.finishes c.interval i) ∧
          u.world.1 = t.world.1 ++ (List.range (i + 1)).map (fun k =>
            t.now.after (s.begins c.interval k)) ∧
          made (i + 1) u.world.2) ∧
      ((∀ n, s.takes n = ⟨0⟩ ∧ ∃ a, s.sees n = .ok (.pending a)) →
        i = c.timeout.nanos / c.interval.nanos ∧
          (s.finishes c.interval i).nanos =
            c.timeout.nanos / c.interval.nanos * c.interval.nanos) := by
  obtain ⟨i, hi⟩ := exists_isLast (s := s) (c := c) hpositive
  have hbegins : ∀ k ≤ i, (s.begins c.interval k).nanos ≤ c.timeout.nanos := fun k hk =>
    begins_le_timeout (Nat.le_refl _) fun l hl => hi.first l (Nat.lt_of_lt_of_le hl hk)
  have hmost : i ≤ c.timeout.nanos / c.interval.nanos :=
    (Nat.le_div_iff_mul_le hpositive).mpr
      (Nat.le_trans (mul_le_begins i) (hbegins i (Nat.le_refl i)))
  refine ⟨i, hi, hmost, hbegins, ?_, fun hprompt => ?_⟩
  · -- What is kept besides the world of the checks is when they began.
    let made' : Nat → List Instant × ω → Prop := fun n p =>
      p.1 = t.world.1 ++ (List.range n).map (fun k => t.now.after (s.begins c.interval k)) ∧
        made n p.2
    refine poll_ends_of_checks (M := made') hi ?_ ?_ (Nat.lt_of_le_of_lt hmost hcount) htimeout
      (hclock i · hi.first) ⟨by simp, hmade⟩
    · rintro n u hnow ⟨hdates, hmade⟩
      have hcheck : ∀ v : Timeline ω, v.now = u.now → v.world = u.world.2 →
          Ends never check v fun r w =>
          r = s.sees n ∧ w.now = u.now.after (s.takes n) ∧ made (n + 1) w.world := by
        intro v hv hw
        rw [← hv]
        exact hchecks n v (hw ▸ hmade)
      refine (dated_ends hcheck).weaken ?_
      rintro r v ⟨hdate, w, ⟨hr, hw, hmade'⟩, hv, hvw⟩
      refine ⟨hr, hv.trans hw, ?_, hvw ▸ hmade'⟩
      rw [hdate, hdates, hnow, List.range_succ, List.map_append, List.append_assoc]
      rfl
    · intro n hn
      rw [hexact n fun k hk => hi.first k (Nat.lt_of_le_of_lt hk hn)]
      simp only [Instant.after, finishes, begins, Nat.add_assoc]
  · have hlast :=
      isLast_of_prompt (c := c) hpositive (fun n => (hprompt n).1) fun n => (hprompt n).2
    obtain rfl := hi.unique hlast
    refine ⟨rfl, ?_⟩
    simp only [finishes, begins_of_prompt fun n => (hprompt n).1, (hprompt _).1, Nat.add_zero]

/-- Two checks that see something pending, the first of which takes a while, and then one that is
done. -/
def soonDone : Checks Nat String where
  takes n := if n = 0 then .ofMillis 1500 else ⟨0⟩
  sees n := .ok (if n < 2 then .pending n else .done n)

theorem poll_exact_soonDone :
    soonDone.MadeBy soonDone.replay (fun n w => w = n) ∧ 0 < defaultPollInterval.nanos ∧
      defaultPollTimeout.nanos / defaultPollInterval.nanos < PollConfig.attemptLimit ∧
      (∀ n, (∀ k ≤ n, ¬soonDone.Concludes default defaultPollInterval k) →
        wake (Instant.start.after (soonDone.finishes defaultPollInterval n)) defaultPollInterval =
          (Instant.start.after (soonDone.finishes defaultPollInterval n)).after
            defaultPollInterval) ∧
      defaultPollTimeout.nanos < Instant.bound ∧
      (∀ n a, (∀ k < n, ¬soonDone.Concludes default defaultPollInterval k) →
        soonDone.sees n = .ok (.pending a) →
        Instant.start.nanos + (soonDone.finishes defaultPollInterval n).nanos +
          defaultPollInterval.nanos <
          Instant.bound) ∧
      ∃ i, soonDone.IsLast default defaultPollInterval i ∧ i ≤ 36 ∧
        (∀ k ≤ i, (soonDone.begins defaultPollInterval k).nanos ≤ defaultPollTimeout.nanos) ∧
        Ends never (poll default (dated soonDone.replay)) ⟨.start, #[], ([], 0)⟩ (fun x u =>
          x = soonDone.verdict defaultPollInterval i ∧
            u.now = Instant.start.after (soonDone.finishes defaultPollInterval i) ∧
            u.world.1 = (List.range (i + 1)).map
              (fun k => Instant.start.after (soonDone.begins defaultPollInterval k)) ∧
            u.world.2 = i + 1) ∧
        ((∀ n, soonDone.takes n = ⟨0⟩ ∧ ∃ a, soonDone.sees n = .ok (.pending a)) →
          i = 36 ∧
            (soonDone.finishes defaultPollInterval i).nanos = 36 * defaultPollInterval.nanos) := by
  have htakes : ∀ n, (soonDone.takes n).IsWhole := by
    intro n
    unfold soonDone
    dsimp only
    split <;> rfl
  have hclock : ∀ n a, (∀ k < n, ¬soonDone.Concludes default defaultPollInterval k) →
      soonDone.sees n = .ok (.pending a) →
      Instant.start.nanos + (soonDone.finishes defaultPollInterval n).nanos +
        defaultPollInterval.nanos <
        Instant.bound := by
    intro n a _ hsees
    match n with
    | 0 | 1 => decide
    | n + 2 => cases hsees
  have hpositive : 0 < defaultPollInterval.nanos := by decide
  have hstarted : Instant.start.IsWhole := rfl
  have hwhole : (default : PollConfig).interval.IsWhole := rfl
  have hpace : defaultPollInterval.nanos = (default : PollConfig).pace := rfl
  have hexact : ∀ n, (∀ k ≤ n, ¬soonDone.Concludes default defaultPollInterval k) →
      wake (Instant.start.after (soonDone.finishes defaultPollInterval n)) defaultPollInterval =
        (Instant.start.after (soonDone.finishes defaultPollInterval n)).after
          defaultPollInterval := by
    intro n _
    have hwake :
        wake (Instant.start.after (soonDone.finishes defaultPollInterval n)) defaultPollInterval =
        Instant.start.after (soonDone.begins defaultPollInterval (n + 1)) :=
      wake_finishes hstarted hwhole htakes hpace n
    rw [hwake]
    simp only [Instant.after, finishes, begins, Nat.add_assoc]
  have hcount : defaultPollTimeout.nanos / defaultPollInterval.nanos < PollConfig.attemptLimit := by
    decide
  have htimeout : defaultPollTimeout.nanos < Instant.bound := by decide
  exact ⟨soonDone.replay_madeBy, hpositive, hcount, hexact, htimeout, hclock,
    poll_exact (c := default) (t := ⟨.start, #[], ([], 0)⟩) soonDone.replay_madeBy hpositive
      hcount hexact htimeout
      hclock rfl⟩

end Checks
end Provision
