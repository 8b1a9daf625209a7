import Provision.Proofs.Punctual

/-!
Ticks on a machine: each looks whether the instance is there, and then updates or makes it. On the
service in memory the first tick leaves the instance there, whatever else comes of it, the second
leaves the status settled, and from then on a tick only reads.
-/
namespace Provision

open Timed

namespace Collaborators

section Ticks

variable {σ τ : Type}

/-- One tick on the machine in its current status. -/
def tick (c : Collaborators σ τ) (m : Machine) : Timed (World σ (List Write × τ)) Unit := do
  let current := m.withStatus (m.statusAfter (← Timed.world).storage.1)
  let found : Outcome Bool ← c.journaled.perform .exists current
  match found.result with
  | .ok true =>
    let _ ← c.journaled.perform .update current
  | .ok false =>
    let _ ← c.journaled.perform .create current
  | .error _ => pure ()

/-- So many ticks, one after the other. -/
def ticks (c : Collaborators σ τ) (m : Machine) : Nat → Timed (World σ (List Write × τ)) Unit
  | 0 => pure ()
  | n + 1 => do
    c.ticks m n
    c.tick m

end Ticks

variable {τ : Type} {c : Collaborators Mock τ} {m : Machine} {s : Scope}
  {t : Timeline (World Mock (List Write × τ))}

/-- A tick looks whether the instance is there, and then does one action more. -/
theorem tick_in_room {d : Nat} (h : c.Prompt d) (hm : c.machines.Answers fun _ => True)
    (hroom : t.now.nanos + c.polling.reach + 6 * d < Instant.bound) :
    Ends outOfAttempts (c.tick m) t fun _ _ => True := by
  unfold tick
  refine ends_bind_of_exec (exec_world t) ?_
  refine ends_bind (h.journaled.perform_exists _ t).of_never fun y u ⟨_, hu⟩ => ?_
  have hperform := fun a => h.perform (t := u) hm (by omega) a
    (m.withStatus (m.statusAfter t.world.storage.1))
  split
  · exact ends_bind (hperform .update) fun _ _ _ => ends_pure trivial
  · exact ends_bind (hperform .create) fun _ _ _ => ends_pure trivial
  · exact ends_pure trivial

section Ticks

variable (hservice : c.service = Mock.service) (hm : c.machines.Takes)
  (hv : m.validationError? = none)
  (hacq : Scope.acquire c.defaultProject m = .ok s)

include hservice hm hv hacq

/-- A tick on an instance that is there makes the status show it, and writes the status unless it
did before. -/
theorem tick_ends_of_stands {o : Observation} (h : s.Stands t.world.compute o) :
    Ends never (c.tick m) t fun _ u =>
      u.world.compute = (s.look t.world.compute).noted s.reading ∧ u.world.events = t.world.events ∧
        m.statusAfter u.world.storage.1 = s.projection o ∧
        (m.statusAfter t.world.storage.1 = s.projection o → u.world.storage = t.world.storage) := by
  obtain ⟨i, hi, ho⟩ := h.seen
  have hacq' := Scope.acquire_withStatus hacq (m.statusAfter t.world.storage.1)
  unfold tick
  refine ends_bind_of_exec (exec_world t) ?_
  refine ends_bind (perform_exists_ends (c := c.journaled) hservice hacq' hv h.serves.shows) ?_
  rintro y u ⟨hy, hc, hst, he⟩
  have hfound : y.result = .ok true := by
    rw [hy]
    exact congrArg Except.ok (congrArg Option.isSome hi)
  simp only [hfound]
  have hstands : s.Stands u.world.compute o := by
    rw [hc]
    exact h.of_alike (s.look_alike _)
  have hb : m.statusAfter u.world.storage.1 = m.statusAfter t.world.storage.1 := by rw [hst]
  refine ends_bind (perform_update_ends hservice hacq' hm (Scope.stands_inStatus.mpr hstands) hb) ?_
  rintro _ w ⟨hc', he', hshown, hclean⟩
  refine ends_pure ⟨?_, he'.trans he, hshown, fun hbefore => (hclean hbefore).trans hst⟩
  rw [hc', hc]
  rfl

/-- A tick leaves the instance there, and asks for it once at most. It may be cut short only where
it asks for it. -/
theorem tick_ends (hk : c.secrets.Answers) (hdata : c.secrets.Resolves m t.world.storage.2)
    (hs : t.world.compute.Serves s.project s.zone)
    (hi : ∀ i, t.world.compute.instances.find? s.key = some i → i.interfaces ≠ []) :
    Ends (fun e u => c.polling.Stops e u.now ∧ t.world.compute.CutShort u.world.compute e)
      (c.tick m) t fun _ u =>
      (∃ o, s.Stands u.world.compute o) ∧
        u.world.compute.insertions ≤ t.world.compute.insertions + 1 := by
  cases hfind : t.world.compute.instances.find? s.key with
  | some i =>
    obtain ⟨o, ho⟩ := Instance.exists_observation (hi i hfind)
    have hstands : s.Stands t.world.compute o := ⟨hs, i, hfind, ho⟩
    have htick := tick_ends_of_stands hservice hm hv hacq hstands
    refine htick.of_never.weaken fun _ u ⟨hc, _⟩ => ?_
    have ha := s.look_reading_alike t.world.compute
    rw [← hc] at ha
    have hn := ha.insertions
    exact ⟨⟨o, hstands.of_alike ha⟩, by omega⟩
  | none =>
    have hacq' := Scope.acquire_withStatus hacq (m.statusAfter t.world.storage.1)
    unfold tick
    refine ends_bind_of_exec (exec_world t) ?_
    have hlook := perform_exists_ends (c := c.journaled) (t := t) hservice hacq' hv hs.shows
    refine ends_bind hlook.of_never fun y u ⟨hy, hc, hst, _⟩ => ?_
    have hfound : y.result = .ok false := by
      rw [hy]
      exact congrArg Except.ok (congrArg Option.isSome hfind)
    simp only [hfound]
    have ha := s.look_alike t.world.compute
    have hlooked : u.world.compute = s.look t.world.compute := hc
    rw [← hlooked] at ha
    have hi' : u.world.compute.instances.find? s.key = none := by
      rw [ha.instances]
      exact hfind
    rw [← hst] at hdata
    have hn := ha.insertions
    have hcreate := perform_create_ends hservice hacq' hk hm hv hdata (hs.of_alike ha) hi'
    refine ends_bind (hcreate.mono ?_ fun _ _ hq => hq) ?_
    · rintro e w ⟨hstop, hcut⟩
      rw [hlooked] at hcut
      exact ⟨hstop, Scope.cutShort_of_look hcut⟩
    · rintro _ w ⟨⟨o, ho⟩, hcount⟩
      exact ends_pure ⟨⟨o, Scope.stands_inStatus.mp ho⟩, by omega⟩

/-- The instance is there after no more than so many insertions, and the status shows just that. -/
def Settled (m : Machine) (s : Scope) (most : Nat) (w : World Mock (List Write × τ)) : Prop :=
  w.compute.insertions ≤ most ∧ ∃ o, s.Stands w.compute o ∧
    m.statusAfter w.storage.1 = s.projection o

/-- A tick settles the status on an instance that is there. -/
theorem tick_ends_settled {most : Nat} (hmost : t.world.compute.insertions ≤ most) {o : Observation}
    (h : s.Stands t.world.compute o) :
    Ends never (c.tick m) t fun _ u => Settled m s most u.world := by
  refine (tick_ends_of_stands hservice hm hv hacq h).weaken fun _ u ⟨hc, _, hshown, _⟩ => ?_
  have ha := s.look_reading_alike t.world.compute
  rw [← hc] at ha
  have hn := ha.insertions
  exact ⟨by omega, o, h.of_alike ha, hshown⟩

/-- Two ticks settle the status, and further ticks leave it settled. -/
theorem ticks_ends_settled (hk : c.secrets.Answers) (hdata : c.secrets.Resolves m t.world.storage.2)
    (hs : t.world.compute.Serves s.project s.zone)
    (hi : ∀ i, t.world.compute.instances.find? s.key = some i → i.interfaces ≠ []) (n : Nat) :
    Ends (fun e u => c.polling.Stops e u.now ∧ c.SparesClock 6 t.now e ∧
        t.world.compute.CutShort u.world.compute e)
      (c.ticks m (n + 2)) t fun _ u =>
      Settled m s (t.world.compute.insertions + 1) u.world := by
  induction n with
  | zero =>
    have hspares : Ends (fun e _ => c.SparesClock 6 t.now e) (c.tick m) t fun _ _ => True :=
      ends_of_halts fun _ _ hrun _ h hroom => (tick_in_room h hm.answers hroom).of_halt hrun
    -- The first tick may fail or give up waiting, so it is the second that settles.
    have hfirst := hspares.and (tick_ends hservice hm hv hacq hk hdata hs hi)
    refine ends_bind (ends_bind_of_exec (exec_pure () t) (hfirst.mono ?_ fun _ _ hq => hq.2)) ?_
    · rintro e u ⟨hspare, hstop, hcut⟩
      exact ⟨hstop, hspare, hcut⟩
    · rintro _ u ⟨⟨o, ho⟩, hcount⟩
      exact (tick_ends_settled hservice hm hv hacq hcount ho).of_never
  | succ n ih =>
    refine ends_bind ih ?_
    rintro _ u ⟨hcount, o, ho, _⟩
    exact (tick_ends_settled hservice hm hv hacq hcount ho).of_never

end Ticks

/-- Ticks on a valid machine converge. However many there are, they ask for the instance once at
most; after two of them the status shows just what the instance shows; and each one more only reads.
They may be cut short only once they have asked for the instance: the clock can no longer hold the
durations, which it can where it had room for them, or as many looks were made at an operation that
is still under way as can be counted. -/
theorem ticks_converge (hservice : c.service = Mock.service) (hk : c.secrets.Answers)
    (hm : c.machines.Takes) (hv : m.validationError? = none)
    (hacq : Scope.acquire c.defaultProject m = .ok s)
    (hdata : c.secrets.Resolves m t.world.storage.2) (hs : t.world.compute.Serves s.project s.zone)
    (hi : ∀ i, t.world.compute.instances.find? s.key = some i → i.interfaces ≠ [])
    {n : Nat} (hn : 2 ≤ n) :
    Ends (fun e u => c.polling.Stops e u.now ∧ c.SparesClock 6 t.now e ∧
        t.world.compute.CutShort u.world.compute e)
      (c.ticks m n) t fun _ u =>
      u.world.compute.insertions ≤ t.world.compute.insertions + 1 ∧
        (∃ i o, u.world.compute.instances.find? s.key = some i ∧ i.observation? = some o ∧
          m.statusAfter u.world.storage.1 = s.projection o) ∧
        Ends never (c.tick m) u fun _ v =>
          v.world.storage = u.world.storage ∧ v.world.events = u.world.events ∧
            v.world.compute = ((u.world.compute.noted s.zoning).noted s.reading).noted
              s.reading := by
  obtain ⟨k, rfl⟩ := Nat.exists_eq_add_of_le' hn
  refine (ticks_ends_settled hservice hm hv hacq hk hdata hs hi k).weaken ?_
  rintro _ u ⟨hcount, o, ho, hshown⟩
  obtain ⟨i, hfind, hobs⟩ := ho.seen
  refine ⟨hcount, ⟨i, o, hfind, hobs, hshown⟩, ?_⟩
  refine (tick_ends_of_stands hservice hm hv hacq ho).weaken fun _ v ⟨hc, he, _, hclean⟩ => ?_
  exact ⟨hclean hshown, he, hc⟩

theorem ticks_converge_inMemory :
    (inMemory default (some "lab")).service = Mock.service ∧
      (SecretStore.memory ∅ : SecretStore MachineTable).Answers ∧ MachineStore.memory.Takes ∧
      Machine.small.validationError? = none ∧ Scope.acquire (some "lab") .small = .ok .small ∧
      (SecretStore.memory ∅).Resolves .small MachineTable.empty ∧
        Mock.new.Serves "lab" "us-east1-c" ∧
      (∀ i, Mock.new.instances.find? Scope.small.key = some i → i.interfaces ≠ []) ∧ 2 ≤ 3 ∧
      Ends never
        ((inMemory default (some "lab")).ticks .small 3) (World.start .new ([], .empty)) fun _ u =>
          u.world.compute.insertions ≤ 1 ∧
            (∃ i o, u.world.compute.instances.find? Scope.small.key = some i ∧
              i.observation? = some o ∧
              Machine.small.statusAfter u.world.storage.1 = Scope.small.projection o) ∧
            Ends never ((inMemory default (some "lab")).tick .small) u fun _ v =>
              v.world.storage = u.world.storage ∧ v.world.events = u.world.events ∧
                v.world.compute = ((u.world.compute.noted Scope.small.zoning).noted
                  Scope.small.reading).noted Scope.small.reading := by
  have hk : (SecretStore.memory ∅ : SecretStore MachineTable).Answers :=
    SecretStore.memory_answers ∅
  have hv : Machine.small.validationError? = none := by decide
  have hacq : Scope.acquire (some "lab") .small = .ok .small := rfl
  have hdata : (SecretStore.memory ∅).Resolves .small MachineTable.empty := nofun
  have hs : Mock.new.Serves "lab" "us-east1-c" := ⟨rfl, nofun⟩
  have hi : ∀ i, Mock.new.instances.find? Scope.small.key = some i → i.interfaces ≠ [] := nofun
  have hn : 2 ≤ 3 := by decide
  have hticks := ticks_converge (c := inMemory default (some "lab"))
    (t := World.start .new ([], .empty)) rfl hk MachineStore.memory_takes hv hacq hdata hs hi hn
  refine ⟨rfl, hk, MachineStore.memory_takes, hv, hacq, hdata, hs, hi, hn,
    hticks.mono ?_ fun _ _ h => h⟩
  rintro e u ⟨hstop, hspare, _⟩
  exact not_stops_inMemory hspare u.now hstop

end Collaborators
end Provision
