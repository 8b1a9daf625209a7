import Provision.Proofs.Base64
import Provision.Proofs.Creation.Conclusion
import Provision.Proofs.Request

/-!
Boot data on their way from a secret into the instance that is asked for. They arrive as they are,
or nothing is asked for.
-/
namespace Provision

open Timed

namespace SecretStore

/-- The boot data in what a look-up answers. -/
def bootData? : Except SecretError Secret → Option Bytes
  | .ok secret => secret.find? bootDataKey
  | .error _ => none

/-- A look-up in the state `x` answers these boot data, or that there are none. -/
def Yields {τ : Type} (k : SecretStore τ) (ns name : String) (x : τ)
    (found : Option Bytes) : Prop :=
  ∀ t, t.world = x → Ends never (k ns name) t fun r _ => bootData? r = found

theorem memory_yields {τ : Type} (table : SecretTable) (ns name : String) (x : τ) :
    (memory table).Yields ns name x (bootData? (table.get ns name)) := fun _ _ => ends_pure rfl

end SecretStore

/-- The instance a call asks for. -/
def Call.inserted? : Call → Option Instance
  | .insertInstance _ _ i => some i
  | _ => none

namespace Service

/-- The instances asked for, in order. -/
def inserted (es : List Exchange) : List Instance := es.filterMap fun e => e.1.inserted?

theorem inserted_polls (project zone operation : String)
    (rs : List (Except ComputeError Operation)) :
    inserted (polls project zone operation rs) = [] := by
  refine List.filterMap_eq_nil_iff.mpr fun e he => ?_
  obtain ⟨r, _, rfl⟩ := List.mem_map.mp he
  rfl

end Service

/-- The first of the metadata are these boot data, and they are what the instance looks up. -/
structure Instance.Carries (i : Instance) (data : String) : Prop where
  first : ∃ items, i.metadata = some (⟨userDataKey, some data⟩ :: items)
  found : i.metadataItem? userDataKey = some ⟨userDataKey, some data⟩

theorem Machine.carries_request (m : Machine) (project data : String) :
    (m.request project data).Carries data :=
  ⟨⟨_, rfl⟩, List.find?_cons_of_pos (decide_eq_true rfl)⟩

/-- What a machine asks for when its secret is looked up in the state `x`. -/
structure Machine.BootsFrom {τ : Type} (m : Machine) (k : SecretStore τ) (x : τ)
    (asked : List Instance) : Prop where
  held : ∀ name bytes, m.spec.userDataSecret = some name → k.Yields m.ns name x (some bytes) →
    ∃ i data, asked = [i] ∧ i.Carries data ∧ Base64.decode data = some bytes
  unnamed : m.spec.userDataSecret = none → ∃ i, asked = [i] ∧ i.Carries ""
  lacking : ∀ name, m.spec.userDataSecret = some name → k.Yields m.ns name x none → asked = []

namespace Scope

variable {s : Scope} {boot : Except MachineError String} {es : List Exchange}

/-- The instance asked for when the boot data resolve as `boot` says. -/
def asked (s : Scope) (boot : Except MachineError String) : List Instance :=
  (boot.toOption.map (s.machine.request s.project)).toList

theorem Attempt.inserted {result : Except ActuatorError Unit} (h : s.Attempt (.ok boot) result es)
    (hv : s.machine.validationError? = none) : Service.inserted es = s.asked boot := by
  cases h with
  | invalid he => rw [hv] at he; cases he
  | unresolved _ hb => cases hb; rfl
  | refused _ hb e => cases hb; rfl
  | waited _ hb o rs hy =>
    cases hb
    exact congrArg (s.machine.request s.project _ :: ·) (Service.inserted_polls ..)

theorem CutShort.inserted {e : Halt} (h : s.CutShort (.ok boot) e es) :
    Service.inserted es = s.asked boot := by
  cases h with
  | waiting _ hb o rs _ =>
    cases hb
    exact congrArg (s.machine.request s.project _ :: ·) (Service.inserted_polls ..)

end Scope

namespace Collaborators

variable {σ τ : Type} {c : Collaborators σ τ} {s : Scope} {t : Timeline (World σ τ)}

theorem userData_of_yields {name : String} {found : Option Bytes}
    (hname : s.machine.spec.userDataSecret = some name)
    (h : c.secrets.Yields s.machine.ns name t.world.storage found) :
    ∃ boot, (exec (c.userData s) t).1 = .ok boot ∧ boot.toOption = found.map Base64.encode := by
  have hends : Ends never (c.userData s) t fun boot _ =>
      boot.toOption = found.map Base64.encode := by
    unfold userData
    rw [hname]
    refine ends_bind (World.ends_onStorage (h ⟨t.now, t.log, t.world.storage⟩ rfl)) ?_
    rintro r u ⟨_, rfl, _⟩
    cases r with
    | error e => exact ends_pure rfl
    | ok secret =>
      simp only [SecretStore.bootData?]
      cases secret.find? bootDataKey <;> exact ends_pure rfl
  obtain ⟨boot, u, he, hb⟩ := hends.returns
  exact ⟨boot, congrArg Prod.fst he, hb⟩

theorem userData_of_unnamed (h : s.machine.spec.userDataSecret = none) :
    (exec (c.userData s) t).1 = .ok (.ok "") := by
  unfold userData
  rw [h]
  rfl

theorem bootsFrom_asked {boot : Except MachineError String}
    (hb : (exec (c.userData s) t).1 = .ok boot) :
    s.machine.BootsFrom c.secrets t.world.storage (s.asked boot) where
  held name bytes hname h := by
    obtain ⟨boot', hb', hdata⟩ := userData_of_yields hname h
    cases hb.symm.trans hb'
    refine ⟨s.machine.request s.project (Base64.encode bytes), Base64.encode bytes, ?_, ?_,
      Base64.decode_encode bytes⟩
    · rw [Scope.asked, hdata]
      rfl
    · exact s.machine.carries_request s.project _
  unnamed h := by
    cases hb.symm.trans (userData_of_unnamed h)
    exact ⟨_, rfl, s.machine.carries_request s.project ""⟩
  lacking name hname h := by
    obtain ⟨boot', hb', hdata⟩ := userData_of_yields hname h
    cases hb.symm.trans hb'
    rw [Scope.asked, hdata]
    rfl

/-- A valid machine asks for one instance with its boot data, or for none when it cannot have them.
Where waiting is cut short, that is done already. -/
theorem create_bootData (hs : c.service.Answers) (hk : c.secrets.Answers)
    (hv : s.machine.validationError? = none) (t : Timeline (World (List Exchange × σ) τ)) :
    Ends (fun e u => c.polling.Stops e u.now ∧ ∃ es, u.world.compute.1 = t.world.compute.1 ++ es ∧
        s.machine.BootsFrom c.secrets t.world.storage (Service.inserted es))
      (c.traced.create s) t fun _ u => ∃ es, u.world.compute.1 = t.world.compute.1 ++ es ∧
        s.machine.BootsFrom c.secrets t.world.storage (Service.inserted es) := by
  obtain ⟨boot, v, he, _⟩ := (userData_ends (c := c.traced) (s := s) (t := t) hk).returns
  have hboot : (exec (c.traced.userData s) t).1 = .ok boot := congrArg Prod.fst he
  have hasked : s.machine.BootsFrom c.secrets t.world.storage (s.asked boot) :=
    bootsFrom_asked (c := c.traced) hboot
  have hcreate := create_traced_ends (c := c) (s := s) (t := t) hs hk
  rw [hboot] at hcreate
  refine hcreate.mono ?_ ?_
  · rintro e u ⟨hstop, _, es, hes, hcut⟩
    refine ⟨hstop, es, hes, ?_⟩
    rwa [hcut.inserted]
  · rintro x u ⟨es, r, hattempt, hes, _⟩
    refine ⟨es ++ [⟨s.reading, r⟩], ?_, ?_⟩
    · rw [hes, List.append_assoc]
    · have hread : Service.inserted (es ++ [⟨s.reading, r⟩]) = Service.inserted es := by
        rw [Service.inserted, List.filterMap_append]
        exact List.append_nil _
      rwa [hread, hattempt.inserted hv]

end Collaborators

/-- The furnished machine, taken up in a project. -/
def Scope.furnished : Scope := ⟨.furnished, Machine.furnished.status, "lab", false⟩

/-- The secret that the furnished machine names, with these boot data. -/
def SecretTable.furnished (bytes : Bytes) : SecretTable :=
  addEntry ∅ "default" "boot" bootDataKey bytes

namespace Collaborators

/-- Everything in memory, with these secrets. -/
def holding (secrets : SecretTable) : Collaborators Mock MachineTable :=
  { inMemory default (some "lab") with secrets := .memory secrets }

theorem create_bootData_furnished :
    (holding (.furnished [0, 255, 10, 61])).service.Answers ∧
      (holding (.furnished [0, 255, 10, 61])).secrets.Answers ∧
      Scope.furnished.machine.validationError? = none ∧
      Ends (fun e u => (default : PollConfig).Stops e u.now ∧ ∃ i data,
          Service.inserted u.world.compute.1 = [i] ∧ i.Carries data ∧
            Base64.decode data = some [0, 255, 10, 61])
        ((holding (.furnished [0, 255, 10, 61])).traced.create .furnished)
        (World.start ([], .new) .empty)
        fun _ u => ∃ i data,
          Service.inserted u.world.compute.1 = [i] ∧ i.Carries data ∧
            Base64.decode data = some [0, 255, 10, 61] := by
  have hk := SecretStore.memory_answers (τ := MachineTable) (.furnished [0, 255, 10, 61])
  have hyields :=
    SecretStore.memory_yields (.furnished [0, 255, 10, 61]) "default" "boot"
      (MachineTable.empty : MachineTable)
  have hrun := create_bootData (c := holding (.furnished [0, 255, 10, 61])) (s := .furnished)
    Mock.service_answers hk
    Machine.validationError?_furnished (World.start ([], .new) .empty)
  refine ⟨Mock.service_answers, hk, Machine.validationError?_furnished, hrun.mono ?_ ?_⟩
  · rintro e u ⟨hstop, es, rfl, hboots⟩
    exact ⟨hstop, hboots.held "boot" _ rfl hyields⟩
  · rintro x u ⟨es, rfl, hboots⟩
    exact hboots.held "boot" _ rfl hyields

end Collaborators

end Provision
