import Provision.Proofs.Coherence
import Provision.Proofs.OnMock
import Provision.Proofs.Persistence

/-!
Updates of a machine. What an update leaves in the status is settled by what it reads of the
instance: a read that shows nothing changes nothing, and any other replaces all that the status had.
Where reads keep showing the same, as those of the service in memory do, one update after another
changes and writes nothing any more.
-/
namespace Provision

open Timed

namespace Mock

variable {m m' : Mock} (project zone name : String)

/-- A read is answered alike where instances and failures are the same. -/
theorem Alike.reply_getInstance (h : m.Alike m') :
    (m'.reply (.getInstance project zone name)).1 =
      (m.reply (.getInstance project zone name)).1 := by
  have hfailures : m'.failures.find? .getInstance = m.failures.find? .getInstance := by
    rw [h.failures]
  have hinstances :
      m'.instances.find? (project, zone, name) = m.instances.find? (project, zone, name) := by
    rw [h.instances]
  cases hf : m.failures.find? .getInstance with
  | some e =>
    rw [hf] at hfailures
    rw [reply_eq, reply_eq]
    simp only [Call.method, hf, hfailures]
  | none =>
    rw [hf] at hfailures
    cases hi : m.instances.find? (project, zone, name) with
    | some i =>
      rw [Mock.reply_getInstance hf hi, Mock.reply_getInstance hfailures (hinstances.trans hi)]
    | none =>
      rw [reply_getInstance_absent hf hi, reply_getInstance_absent hfailures (hinstances.trans hi)]

theorem reply_getInstance_alike : m.Alike (m.reply (.getInstance project zone name)).2 := by
  have hn : m.Alike (m.noted (.getInstance project zone name)) := noted_alike nofun
  rw [reply_eq]
  split
  next => exact hn
  next =>
    simp only [handle]
    split <;> exact hn

end Mock

namespace Scope

variable {s : Scope} {st : MachineStatus} {m m' : Mock}

/-- The scope after an update that had this reply. -/
def updated (s : Scope) (r : Except ComputeError Instance) : Scope :=
  (s.read r).settled (s.readResult r)

theorem updated_eq (s : Scope) (r : Except ComputeError Instance) :
    s.updated r = (seen? r).elim s fun o => s.withStatus (s.projection o) := by
  cases r with
  | error e => rfl
  | ok i =>
    cases ho : i.observation? with
    | none =>
      simp only [updated, readResult_of_unseen ho, read_of_unseen ho, settled, seen?,
        ho, Option.elim_none]
    | some o =>
      simp only [updated, readResult_of_seen ho, read_of_seen ho, settled, seen?,
        ho, Option.elim_some]
      rfl

/-- An update leaves the scope as it was, or with a status of what was read. -/
theorem updated_cases (s : Scope) (r : Except ComputeError Instance) :
    (seen? r = none ∧ ∃ e, s.readResult r = .error e ∧ s.updated r = s) ∨ ∃ i o, r = .ok i ∧
      i.observation? = some o ∧ s.readResult r = .ok () ∧
        s.updated r = s.withStatus (s.projection o) := by
  rw [updated_eq]
  cases r with
  | error e => exact .inl ⟨rfl, _, rfl, rfl⟩
  | ok i =>
    cases ho : i.observation? with
    | none =>
      exact .inl ⟨ho, _, readResult_of_unseen ho, by simp only [seen?, ho, Option.elim_none]⟩
    | some o =>
      exact .inr ⟨i, o, rfl, ho, readResult_of_seen ho, by simp only [seen?, ho, Option.elim_some]⟩

theorem readResult_inStatus (s : Scope) (st : MachineStatus) (r : Except ComputeError Instance) :
    (s.inStatus st).readResult r = s.readResult r := by
  cases r <;> rfl

/-- Once an instance is made, the status shows just what the read at the end does. -/
theorem concluded_ok_of_seen {r : Except ComputeError Instance} {o : Observation}
    (h : seen? r = some o) :
    s.concluded (.ok ()) r = s.withStatus (s.projection o) := by
  simp only [concluded, surfaced, read, h, Option.elim_some, settled]
  rfl

/-- If a read of the instance from the mock shows anything, it is what the status has already. -/
def Steady (s : Scope) (m : Mock) (st : MachineStatus) : Prop :=
  ∀ o, seen? (m.reply s.reading).1 = some o → st = s.projection o

/-- A status that shows what was read stays as it is, since another read shows the same. -/
theorem steady_of_reply {r : Reply s.reading} (hr : (r, m') = m.reply s.reading)
    (hst : ∀ o, seen? r = some o → st = s.projection o) : s.Steady m' st := by
  obtain ⟨hr, hm⟩ := Prod.mk.inj hr
  have hagain : (m'.reply s.reading).1 = r := by
    rw [hr, hm]
    exact (Mock.reply_getInstance_alike ..).reply_getInstance ..
  intro o ho
  rw [hagain] at ho
  exact hst o ho

end Scope

/-- Letting a machine go does not turn a failure into a success. -/
theorem Action.Settles.eq_ok {a : Action} {m : Machine} {r : Except ActuatorError a.Answer}
    {st : MachineStatus} {written : List Write} {b : a.Answer}
    (h : a.Settles m r st written (.ok b)) : r = .ok b := by
  cases h with
  | discarded | unchanged | stored => rfl

/-- A run that answers without an error ends. -/
theorem Outcome.exists_of_ok {ω : Type} {r : Except Halt (Outcome Unit) × Timeline ω}
    (h : (r.1.toOption.map fun y => errorOf? y.result) = some none) :
    ∃ y, r = (.ok y, r.2) ∧ y.result = .ok () := by
  obtain ⟨_ | ⟨_ | _, m⟩, u⟩ := r
  · cases h
  · cases h
  · exact ⟨_, rfl, rfl⟩

/-- Instances cannot be read. -/
def Mock.blind : Mock := Mock.new.fail .getInstance (.ofKind .unavailable "try again later")

namespace Collaborators

section Reads

variable {σ τ : Type} {c : Collaborators σ τ} {s : Scope} {t v : Timeline (World σ τ)}
  {r : Reply s.reading}

/-- So many updates, each of the machine as the one before left it. -/
def refreshes (c : Collaborators σ τ) : Nat → Machine → Timed (World σ τ) Machine
  | 0, m => return m
  | n + 1, m => do
    let y ← c.perform .update m
    c.refreshes n y.machine

theorem update_ends_of_reply (h : exec (c.call s.reading) t = (.ok r, v)) :
    Ends never (c.update s) t fun x u => u.world = v.world ∧ x = (s.readResult r, s.updated r) := by
  have hcall : Ends never (c.call s.reading) t fun r' v' => r' = r ∧ v' = v := .answers h ⟨rfl, rfl⟩
  refine (update_ends_of_call hcall).weaken ?_
  rintro x u ⟨_, _, ⟨rfl, rfl⟩, hu, hx⟩
  exact ⟨hu, hx⟩

end Reads

section Steady

variable {τ : Type} {c : Collaborators Mock τ} {m : Machine} {s : Scope}
  (hservice : c.service = Mock.service)

include hservice

/-- A machine that is made or updated without a failure is left with a status that further reads do
not change. -/
theorem reconcile_ends_steady (hk : c.secrets.Answers) {a : Action} (ha : a.persists = true)
    (t : Timeline (World Mock τ)) : Ends anywhere (c.reconcile s a) t fun x u =>
      ∀ b, x.1 = .ok b → s.Steady u.world.compute x.2.status := by
  have hanswers : c.service.Answers := hservice ▸ Mock.service_answers
  cases a with
  | «exists» | delete => cases ha
  | create =>
    refine (create_ends hanswers hk).mono (fun _ _ _ => trivial) ?_
    rintro ⟨_, s'⟩ u ⟨es, r, _, hsteps, hx, _⟩ b rfl
    obtain ⟨m', _, hread⟩ := hsteps.of_append
    rw [hservice] at hread
    refine Scope.steady_of_reply (Mock.reply_of_step hread.single) fun o ho => ?_
    change s'.status = _
    rw [show s' = _ from hx, Scope.concluded_ok_of_seen ho]
    rfl
  | update =>
    refine (reconcile_update_ends hanswers).of_never.weaken ?_
    rintro _ u ⟨r, hread, _, rfl⟩ b _
    rw [hservice] at hread
    refine Scope.steady_of_reply (Mock.reply_of_step hread) fun o ho => ?_
    change (s.updated r).status = _
    rw [s.updated_eq, ho]
    rfl

/-- An update of a steady machine writes nothing, and leaves it as it was. -/
theorem perform_update_ends_of_steady (hm : c.machines.Answers fun _ => True)
    (hacq : Scope.acquire c.defaultProject m = .ok s) {t : Timeline (World Mock (List Write × τ))}
    (h : s.Steady t.world.compute m.status) :
    Ends never (c.journaled.perform .update m) t fun y u =>
      y.machine = m ∧ u.world.storage = t.world.storage ∧ s.Steady u.world.compute m.status := by
  have hanswers := journaled_service_answers hservice
  obtain ⟨_, rfl⟩ := Scope.acquire_eq_ok.mp hacq
  let s : Scope := ⟨m, m.status, Scope.projectOf c.defaultProject m, false⟩
  let P : Except ActuatorError Unit × Scope → World Mock (List Write × τ) → Prop := fun x w =>
    w.storage = t.world.storage ∧ x.2 = s ∧ s.Steady w.compute m.status
  have hupdate : ∀ v, v.now = t.now → v.world = t.world →
      Ends never (c.journaled.reconcile s .update) v fun x u => P x u.world := by
    intro v _ hw
    refine (reconcile_update_ends hanswers).weaken ?_
    rintro _ u ⟨r, hread, ⟨hst, _⟩, rfl⟩
    rw [hw] at hread hst
    have hread' : Mock.service.Step s.reading t.world.compute r u.world.compute := by
      rw [← hservice]
      exact hread
    have hreply := Mock.reply_of_step hread'
    have hseen : ∀ o, Scope.seen? r = some o → m.status = s.projection o := by
      intro o ho
      rw [show r = (t.world.compute.reply s.reading).1 from congrArg Prod.fst hreply] at ho
      exact h o ho
    refine ⟨hst, ?_, Scope.steady_of_reply hreply hseen⟩
    change s.updated r = s
    rw [s.updated_eq]
    cases ho : Scope.seen? r with
    | none => rfl
    | some o =>
      rw [Option.elim_some, ← hseen o ho]
      rfl
  refine (perform_ends_of_persists (a := .update) P rfl hacq hm hupdate).weaken ?_
  rintro _ u ⟨⟨r, _⟩, w, closed, ⟨hst, rfl, hsteady⟩, hclosed, rfl⟩
  obtain rfl := hclosed.eq_of_clean rfl
  exact ⟨rfl, hst, hsteady⟩

/-- Nor do so many of them. -/
theorem refreshes_ends_of_steady (hm : c.machines.Answers fun _ => True)
    (hacq : Scope.acquire c.defaultProject m = .ok s) (n : Nat)
    {t : Timeline (World Mock (List Write × τ))} (h : s.Steady t.world.compute m.status) :
    Ends never (c.journaled.refreshes n m) t fun m' u =>
      m' = m ∧ u.world.storage = t.world.storage := by
  induction n generalizing t with
  | zero => exact ends_pure ⟨rfl, rfl⟩
  | succ n ih =>
    refine ends_bind (perform_update_ends_of_steady hservice hm hacq h)
      fun y u ⟨hy, hst, hsteady⟩ => ?_
    rw [hy]
    exact (ih hsteady).weaken fun m' v ⟨hm', hv⟩ => ⟨hm', hv.trans hst⟩

end Steady

/-- An update that fails leaves the status as it was. One that succeeds leaves a status that only
what was read and the provider ID make up, so that updates of two machines which differ in their
status alone come to the same when they read the same. On the service in memory, after a machine was
made or updated without a failure, no number of further updates writes anything or changes the
machine. -/
theorem update_history_free {σ τ τ' : Type} (c : Collaborators σ τ) (s : Scope)
    {k : Collaborators Mock τ'} (hservice : k.service = Mock.service) (hk : k.secrets.Answers)
    (hm : k.machines.Answers fun _ => True) :
    (∀ (t v : Timeline (World σ τ)) (r : Reply s.reading), exec (c.call s.reading) t = (.ok r, v) →
      Ends never (c.update s) t fun x u => u.world = v.world ∧
        ((Scope.seen? r = none ∧ ∃ e, x = (.error e, s)) ∨
          ∃ i o, r = .ok i ∧ i.observation? = some o ∧
            x = (.ok (), s.withStatus (s.projection o)))) ∧
      (∀ (st : MachineStatus) (t t' v v' : Timeline (World σ τ)) (r : Reply s.reading),
        exec (c.call s.reading) t = (.ok r, v) → exec (c.call s.reading) t' = (.ok r, v') →
        Ends never (c.update s) t fun x _ => Ends never (c.update (s.inStatus st)) t' fun x' _ =>
          x'.1 = x.1 ∧
            (x.1 = .ok () → x'.2.status = x.2.status ∧ x.2.status.failure = (none, none))) ∧
      ∀ (a : Action) (m : Machine) (t : Timeline (World Mock (List Write × τ'))),
        a.persists = true →
        Ends (fun e u => k.polling.Stops e u.now) (k.journaled.perform a m) t fun y u =>
          ∀ b, y.result = .ok b → ∀ n, Ends never (k.journaled.refreshes n y.machine) u fun m' v =>
            m' = y.machine ∧ v.world.storage = u.world.storage := by
  refine ⟨fun t v r hcall => ?_, fun st t t' v v' r hcall hcall' => ?_, fun a m t ha => ?_⟩
  · refine (update_ends_of_reply hcall).weaken ?_
    rintro _ u ⟨hu, rfl⟩
    refine ⟨hu, ?_⟩
    obtain ⟨hr, e, hresult, hs⟩ | ⟨i, o, hr, ho, hresult, hs⟩ := s.updated_cases r
    · exact .inl ⟨hr, e, by rw [hresult, hs]⟩
    · exact .inr ⟨i, o, hr, ho, by rw [hresult, hs]⟩
  · refine (update_ends_of_reply hcall).weaken ?_
    rintro _ u ⟨_, rfl⟩
    refine (update_ends_of_reply (s := s.inStatus st) hcall').weaken ?_
    rintro _ u' ⟨_, rfl⟩
    refine ⟨s.readResult_inStatus st r, fun hok => ?_⟩
    obtain ⟨_, e, hresult, _⟩ | ⟨i, o, rfl, ho, _⟩ := s.updated_cases r
    · rw [hresult] at hok
      cases hok
    · have hseen : Scope.seen? (.ok i) = some o := ho
      simp only [Scope.updated_eq, hseen, Option.elim_some]
      exact ⟨rfl, rfl⟩
  · cases hacq : Scope.acquire k.defaultProject m with
    | error e => exact .answers (exec_perform_of_error (c := k.journaled) hacq t) nofun
    | ok s =>
      have hanswers : k.service.Answers := hservice ▸ Mock.service_answers
      refine (journaled_perform_ends hanswers hk hm hacq t).mono (fun _ _ hs => hs.1) ?_
      rintro ⟨_, _⟩ u ⟨r, st, v, _, hrun, rfl, hsettles, _, hcompute, _⟩ b rfl n
      have hsteady :=
        (reconcile_ends_steady (c := k.journaled) hservice hk.beside ha _).of_run
          hrun b hsettles.eq_ok
      rw [← hcompute] at hsteady
      exact refreshes_ends_of_steady hservice hm (Scope.acquire_withStatus hacq st) n hsteady

theorem update_history_free_inMemory :
    (inMemory default (some "lab")).service = Mock.service ∧
      (SecretStore.memory ∅ : SecretStore MachineTable).Answers ∧
        MachineStore.memory.Answers (fun _ => True) ∧
      Action.create.persists = true ∧
      (∃ i v, exec ((inMemory default (some "lab")).call Scope.small.reading)
        (World.start .withInterface .empty) =
          (.ok (.ok i), v) ∧
        Ends never ((inMemory default (some "lab")).update .small)
          (World.start .withInterface .empty) fun x _ =>
          ∃ o, i.observation? = some o ∧
            x = (.ok (), Scope.small.withStatus (Scope.small.projection o)) ∧
            Ends never ((inMemory default (some "lab")).update
                (Scope.small.inStatus
                  { (default : MachineStatus) with errorMessage := some "no such image" }))
              (World.start .withInterface .empty) fun x' _ =>
              x'.1 = x.1 ∧
                (x.1 = .ok () → x'.2.status = x.2.status ∧ x.2.status.failure = (none, none))) ∧
      ∃ y u, exec ((inMemory default (some "lab")).journaled.perform .create .small)
        (World.start .blind ([], .empty)) =
          (.ok y, u) ∧ y.result = .ok () ∧
        ∀ n, Ends never ((inMemory default (some "lab")).journaled.refreshes n y.machine) u
          fun m' v =>
            m' = y.machine ∧ v.world.storage = u.world.storage := by
  have hk : (SecretStore.memory ∅ : SecretStore MachineTable).Answers :=
    SecretStore.memory_answers ∅
  have hm : MachineStore.memory.Answers fun _ => True := MachineStore.memory_answers
  obtain ⟨hread, hsame, hafter⟩ :=
    update_history_free (inMemory default (some "lab")) .small
      (k := inMemory default (some "lab")) rfl hk hm
  refine ⟨rfl, hk, hm, rfl, ?_, ?_⟩
  · obtain ⟨i, v, hcall, hseen⟩ : ∃ i v,
      exec ((inMemory default (some "lab")).call Scope.small.reading)
        (World.start .withInterface .empty) = (.ok (.ok i), v) ∧ i.observation?.isSome = true :=
      ⟨_, _, rfl, rfl⟩
    refine ⟨i, v, hcall, ?_⟩
    have hboth := (hread _ _ _ hcall).and
      (hsame { (default : MachineStatus) with errorMessage := some "no such image" }
        _ _ _ _ _ hcall hcall)
    refine hboth.mono (fun _ _ hs => hs.1) ?_
    rintro x u ⟨⟨_, hx⟩, hx'⟩
    obtain ⟨hnone, _⟩ | ⟨i', o, hi, ho, hx⟩ := hx
    · exact absurd hseen (by simp [show i.observation? = none from hnone])
    · cases hi
      exact ⟨o, ho, hx, hx'⟩
  · obtain ⟨y, hrun, hresult⟩ := Outcome.exists_of_ok
      (r := exec ((inMemory default (some "lab")).journaled.perform .create .small)
        (World.start .blind ([], .empty)))
      (by decide +kernel)
    exact ⟨y, _, hrun, hresult, (hafter .create .small _ rfl).of_run hrun () hresult⟩

end Collaborators
end Provision
