import Provision.Actuator.Scope
import Provision.Actuator.World
import Provision.Machine.Validation
import Provision.Proofs.Mock

/-!
Calls, look-ups and events as steps of the world: what each of them changes, and what it leaves as
it was.
-/
namespace Provision

open Timed

namespace SecretStore

variable {τ : Type}

/-- Every look-up is answered. -/
def Answers (k : SecretStore τ) : Prop := ∀ ns name t, Ends never (k ns name) t fun _ _ => True

/-- At most one look-up leads from one state to another. -/
inductive LooksUp (k : SecretStore τ) : τ → τ → Prop
  | none (x : τ) : LooksUp k x x
  | one {ns name : String} {t u : Timeline τ} {r : Except SecretError Secret}
      (h : exec (k ns name) t = (.ok r, u)) : LooksUp k t.world u.world

/-- A machine's boot data, if it names a secret, are found in this state of the store. -/
def Resolves (k : SecretStore τ) (m : Machine) (x : τ) : Prop :=
  ∀ name, m.spec.userDataSecret = some name → ∀ t, t.world = x →
    Ends never (k m.ns name) t fun r _ =>
      ∃ secret bytes, r = .ok secret ∧ secret.find? bootDataKey = some bytes

theorem memory_answers (table : SecretTable) : (memory table : SecretStore τ).Answers :=
  fun _ _ _ => ends_pure trivial

end SecretStore

namespace World

variable {σ τ α : Type} {stop : Halt → Timeline (World σ τ) → Prop} {t : Timeline (World σ τ)}

theorem ends_onCompute {act : Timed σ α} {P : α → Timeline σ → Prop}
    (h : Ends never act ⟨t.now, t.log, t.world.compute⟩ P) :
    Ends stop (onCompute act) t fun a u =>
      ∃ v, P a v ∧ u.world = { t.world with compute := v.world } :=
  (ends_within h).weaken fun _ _ ⟨v, hv, _, hu⟩ => ⟨v, hv, hu⟩

theorem ends_onStorage {act : Timed τ α} {P : α → Timeline τ → Prop}
    (h : Ends never act ⟨t.now, t.log, t.world.storage⟩ P) :
    Ends stop (onStorage act) t fun a u =>
      ∃ v, P a v ∧ u.world = { t.world with storage := v.world } :=
  (ends_within h).weaken fun _ _ ⟨v, hv, _, hu⟩ => ⟨v, hv, hu⟩

/-- Nothing is stored and no event is recorded between the two. -/
def SameRecords (v w : World σ τ) : Prop := w.storage = v.storage ∧ w.events = v.events

theorem SameRecords.refl (w : World σ τ) : w.SameRecords w := ⟨rfl, rfl⟩

theorem SameRecords.trans {u v w : World σ τ} (h : u.SameRecords v) (h' : v.SameRecords w) :
    u.SameRecords w := ⟨h'.1.trans h.1, h'.2.trans h.2⟩

theorem record_ends (r : Recorder) (e : Event) :
    Ends stop (record r e) t fun _ u =>
      u.world = { t.world with events := t.world.events ++ [e] } := by
  unfold record
  refine ends_bind (ends_update _) fun _ u ⟨_, hu⟩ => ?_
  refine (ends_logAll (r e)).weaken fun _ v ⟨_, hv⟩ => ?_
  rw [hv]
  exact (Prod.mk.injEq .. ▸ hu).2

end World

namespace Scope

variable {ω α : Type} {s : Scope} {act : Timed ω α} {t : Timeline ω}
  {stop stop' : Halt → Timeline ω → Prop}
  {Q : α → Timeline ω → Prop}

/-- A machine that is left changes nothing but the log. -/
theorem drop_ends : Ends stop s.drop t fun _ u => u.now = t.now ∧ u.world = t.world := by
  unfold drop
  split
  · exact ends_log
  · exact ends_pure ⟨rfl, rfl⟩

/-- Where work on a machine halts does not depend on the log, in which leaving the machine may
show. -/
theorem holding_ends (h : Ends stop act t Q)
    (hs : ∀ e u v, stop e u → v.now = u.now → v.world = u.world → stop' e v) :
    Ends stop' (s.holding act) t Q :=
  ends_unwinding h fun e u hstop => drop_ends.weaken fun _ v ⟨hn, hw⟩ => hs e u v hstop hn hw

theorem holding_ends_of_never (h : Ends never act t Q) : Ends stop (s.holding act) t Q :=
  holding_ends h fun _ _ _ hstop => hstop.elim

theorem exec_holding_of_ok {a : α} {u : Timeline ω} (h : exec act t = (.ok a, u)) :
    exec (s.holding act) t = (.ok a, u) := exec_unwinding_of_ok h

theorem exec_holding_of_error {e : Halt} {u : Timeline ω} (h : exec act t = (.error e, u)) :
    ∃ v, exec (s.holding act) t = (.error e, v) ∧ v.now = u.now ∧ v.world = u.world := by
  obtain ⟨_, v, hv, hsame⟩ := (drop_ends (s := s) (t := u)).returns
  exact ⟨v, (exec_unwinding_of_error h).trans (exec_bind_of_ok hv), hsame⟩

end Scope

namespace Collaborators

variable {σ τ : Type} {c : Collaborators σ τ} {t : Timeline (World σ τ)}

theorem call_ends (hs : c.service.Answers) (q : Call) :
    Ends never (c.call q) t fun r u =>
      c.service.Step q t.world.compute r u.world.compute ∧ t.world.SameRecords u.world := by
  unfold call
  refine (World.ends_onCompute (hs.ends q _)).weaken fun r u ⟨v, ⟨hv, _⟩, hu⟩ => ?_
  rw [hu]
  exact ⟨hv, rfl, rfl⟩

theorem wait_ends (hs : c.service.Answers) (project zone operation : String) :
    Ends (fun e u => c.polling.Stops e u.now ∧ (∃ rs, Service.Undecided e rs ∧
        c.service.Steps t.world.compute (Service.polls project zone operation rs) u.world.compute) ∧
        t.world.SameRecords u.world)
      (c.wait project zone operation) t fun x u =>
      ∃ rs y, PollOutcome (rs.map Service.progress) y ∧
        x = Service.waited project zone operation y ∧
        c.service.Steps t.world.compute (Service.polls project zone operation rs) u.world.compute ∧
        t.world.SameRecords u.world := by
  unfold wait World.onCompute
  refine (ends_within_of_halts (Service.wait_ends hs) ?_).weaken ?_
  · rintro e v ⟨hstop, hrs⟩
    exact ⟨hstop, hrs, rfl, rfl⟩
  · rintro x u ⟨v, ⟨rs, y, hy, hx, hv⟩, _, hu⟩
    rw [hu]
    exact ⟨rs, y, hy, hx, hv, rfl, rfl⟩

theorem secret_ends (hk : c.secrets.Answers) (ns name : String) :
    Ends never (c.secret ns name) t fun _ u =>
      u.world.compute = t.world.compute ∧ u.world.events = t.world.events ∧
        c.secrets.LooksUp t.world.storage u.world.storage := by
  obtain ⟨r, v, he, _⟩ := (hk ns name ⟨t.now, t.log, t.world.storage⟩).returns
  have hl : c.secrets.LooksUp t.world.storage v.world := .one he
  unfold secret
  refine (World.ends_onStorage (P := fun _ u => u = v) (.answers he rfl)).weaken ?_
  rintro _ u ⟨_, rfl, hu⟩
  rw [hu]
  exact ⟨rfl, rfl, hl⟩

/-- Everything in memory, without secrets. -/
def inMemory (polling : PollConfig) (defaultProject : Option String) :
    Collaborators Mock MachineTable where
  service := Mock.service
  secrets := .memory ∅
  machines := .memory
  recorder := .silent
  polling := polling
  defaultProject := defaultProject

/-- The same collaborators, with a service that keeps its exchanges. -/
def traced (c : Collaborators σ τ) : Collaborators (List Exchange × σ) τ :=
  { c with service := c.service.traced }

end Collaborators

/-- A machine with little more than it needs. -/
def Machine.small : Machine where
  metadata := ⟨"worker-0", "default"⟩
  spec :=
    { (default : MachineSpec) with
      zone := "us-east1-c"
      machineType := "n1-standard-1"
      disks := [⟨true, true, 16, "pd-ssd", "images/rhcos", ∅⟩]
      interfaces := [⟨"default", ""⟩] }
  status := default

/-- The small machine, taken up in a project. -/
def Scope.small : Scope := ⟨Machine.small, Machine.small.status, "lab", false⟩

/-- The start of a run. -/
def World.start {σ τ : Type} (w : σ) (x : τ) : Timeline (World σ τ) := ⟨.start, #[], ⟨w, x, []⟩⟩

end Provision
