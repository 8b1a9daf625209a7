import Provision.Proofs.Creation.BootData
import Provision.Proofs.Similar

/-!
Secret bytes do not show. With stores that hold the same secrets and the same entries of them,
whatever the bytes, making an instance comes out the same, and only the boot data in the instance
that is asked for are told apart.
-/
namespace Provision

open Timed

/-- The same entries, whatever their bytes. -/
def Secret.SameKeys (s s' : Secret) : Prop := ∀ key, (s.find? key).isSome = (s'.find? key).isSome

/-- The same secrets with the same entries. -/
def SecretTable.SameKeys (t t' : SecretTable) : Prop := t.Rel Secret.SameKeys t'

namespace SecretStore

variable {τ : Type}

/-- Two stores that find the same secrets with the same entries, and fail alike. -/
def SameKeys (k k' : SecretStore τ) : Prop :=
  ∀ ns name, Indistinct Eq (Matched Eq Secret.SameKeys) (k ns name) (k' ns name)

theorem memory_sameKeys {table table' : SecretTable} (h : table.SameKeys table') :
    (memory table : SecretStore τ).SameKeys (memory table') := by
  intro ns name
  refine indistinct_pure ?_
  have hfound := h (ns, name)
  unfold SecretTable.get
  generalize table.find? (ns, name) = x at hfound
  generalize table'.find? (ns, name) = x' at hfound
  cases hfound with
  | none => exact .error rfl
  | some hs => exact .ok hs

theorem SameKeys.beside {k k' : SecretStore τ} (h : k.SameKeys k') :
    k.beside.SameKeys k'.beside := by
  intro ns name
  refine indistinct_within (h ns name) (fun w w' hw => congrArg Prod.snd hw) ?_
  rintro w _ x _ rfl rfl
  rfl

end SecretStore

namespace World

variable {σ τ α : Type} {L : σ → σ → Prop} {V : α → α → Prop}

/-- The same storage and the same events, with states of the service that are related. -/
structure Like (L : σ → σ → Prop) (w w' : World σ τ) : Prop where
  compute : L w.compute w'.compute
  storage : w.storage = w'.storage
  events : w.events = w'.events

theorem indistinct_onCompute {act act' : Timed σ α} (h : Indistinct L V act act') :
    Indistinct (Like (τ := τ) L) V (onCompute act) (onCompute act') :=
  indistinct_within h (fun _ _ hw => hw.compute) fun _ _ _ _ hw hx => ⟨hx, hw.storage, hw.events⟩

theorem indistinct_onStorage {act act' : Timed τ α} (h : Indistinct Eq V act act') :
    Indistinct (Like L) V (onStorage act) (onStorage act') :=
  indistinct_within h (fun _ _ hw => hw.storage) fun _ _ _ _ hw hx => ⟨hw.compute, hx, hw.events⟩

theorem indistinct_record {r : Recorder} {e : Event} :
    Indistinct (Like (τ := τ) L) Eq (record r e) (record r e) := by
  unfold record
  refine indistinct_bind_eq (indistinct_update fun w w' hw => ?_) fun _ => indistinct_logAll (r e)
  exact ⟨rfl, hw.compute, hw.storage, congrArg (· ++ [e]) hw.events⟩

end World

namespace Collaborators

variable {σ τ : Type} {c : Collaborators σ τ} {L : σ → σ → Prop} {k k' : SecretStore τ} {s : Scope}

section Shared

/-! What knows nothing of the secrets does the same in both runs. -/

variable (h : c.service.Conceals L)

include h

theorem wait_indistinct (project zone operation : String) :
    Indistinct (World.Like L) Eq (c.wait project zone operation) (c.wait project zone operation) :=
  World.indistinct_onCompute (Service.wait_indistinct h c.polling project zone operation)

theorem refresh_indistinct (s : Scope) :
    Indistinct (World.Like L) Eq (c.refresh s) (c.refresh s) := by
  unfold refresh
  refine indistinct_bind (World.indistinct_onCompute (h.reading s.project s.zone s.name))
    fun r r' hr => ?_
  cases hr with
  | error he =>
    subst he
    exact indistinct_pure rfl
  | @ok i i' hi =>
    -- What is taken over from the instance leaves out its metadata.
    simp only [Instance.withoutInterface, hi.name_eq, hi.observation?_eq]
    cases i'.observation? with
    | none => exact indistinct_pure rfl
    | some o => exact indistinct_bind_eq indistinct_log fun _ => indistinct_pure rfl

omit h in
/-- What is told of a machine that is left depends on the machine alone. -/
theorem holding_indistinct {α : Type} {V : α → α → Prop} {act act' : Timed (World σ τ) α}
    (hact : Indistinct (World.Like L) V act act') :
    Indistinct (World.Like L) V (s.holding act) (s.holding act') := by
  have hdrop : Indistinct (World.Like L) Eq (s.drop : Timed (World σ τ) Unit) s.drop := by
    unfold Scope.drop
    split
    · exact indistinct_log
    · exact indistinct_pure rfl
  exact indistinct_unwinding hact hdrop

omit h in
theorem tell_indistinct (s : Scope) (result : Except ActuatorError Unit) :
    Indistinct (World.Like L) Eq (c.tell s result) (c.tell s result) := by
  match result with
  | .ok () => exact indistinct_pure rfl
  | .error e =>
    cases e with
    | machine e =>
      refine indistinct_bind_eq indistinct_log fun _ => ?_
      exact indistinct_bind_eq World.indistinct_record fun _ => indistinct_pure rfl
    | _ => exact indistinct_pure rfl

theorem conclude_indistinct (result : Except ActuatorError Unit) (s : Scope) :
    Indistinct (World.Like L) Eq (c.conclude result s) (c.conclude result s) := by
  have hfinish : ∀ s, Indistinct (World.Like L) Eq (c.finish result s) (c.finish result s) := by
    intro s
    match result with
    | .error e => exact indistinct_pure rfl
    | .ok () => exact indistinct_bind_eq World.indistinct_record fun _ => indistinct_pure rfl
  unfold conclude
  refine indistinct_bind_eq (holding_indistinct (refresh_indistinct h s)) fun x => ?_
  obtain ⟨refreshed, s'⟩ := x
  cases refreshed with
  | error e => exact indistinct_bind_eq indistinct_log fun _ => hfinish s'
  | ok _ => exact hfinish s'

omit h in
theorem close_indistinct (s : Scope) : Indistinct (World.Like L) Eq (c.close s) (c.close s) := by
  rw [close_eq]
  unfold persist
  split
  · refine indistinct_bind_eq (World.indistinct_onStorage (indistinct_refl _)) fun r => ?_
    cases r with
    | error e => exact indistinct_pure rfl
    | ok _ => exact indistinct_bind_eq indistinct_log fun _ => indistinct_pure rfl
  · exact indistinct_bind_eq indistinct_log fun _ => indistinct_pure rfl

omit h in
theorem release_indistinct (a : Action) (r : Except ActuatorError a.Answer) (s : Scope) :
    Indistinct (World.Like L) Eq (c.release a r s) (c.release a r s) := by
  unfold release
  split
  · exact indistinct_bind_eq (close_indistinct s) fun _ => indistinct_pure rfl
  · exact indistinct_pure rfl

end Shared

section Secrets

variable (h : c.service.Conceals L) (hk : k.SameKeys k')

include hk

/-- Boot data are found in both runs, or missing for the same reason. -/
theorem userData_indistinct (s : Scope) :
    Indistinct (World.Like L) (Matched Eq fun _ _ => True) ({ c with secrets := k }.userData s)
      ({ c with secrets := k' }.userData s) := by
  unfold userData
  split
  next => exact indistinct_pure (.ok trivial)
  next name _ =>
    refine indistinct_bind (World.indistinct_onStorage (hk s.machine.ns name)) fun r r' hr => ?_
    cases hr with
    | error he =>
      subst he
      exact indistinct_pure (.error rfl)
    | @ok secret secret' hsecret =>
      have hkey := hsecret bootDataKey
      dsimp only
      generalize secret.find? bootDataKey = x at hkey
      generalize secret'.find? bootDataKey = x' at hkey
      match x, x' with
      | none, none => exact indistinct_pure (.error rfl)
      | some _, some _ => exact indistinct_pure (.ok trivial)

include h

theorem attempt_indistinct (s : Scope) :
    Indistinct (World.Like L) Eq ({ c with secrets := k }.attempt s)
      ({ c with secrets := k' }.attempt s) := by
  unfold attempt
  split
  · exact indistinct_pure rfl
  unfold insertAndWait
  refine indistinct_bind (userData_indistinct hk s) fun boot boot' hboot => ?_
  cases hboot with
  | error he =>
    subst he
    exact indistinct_pure rfl
  | @ok data data' _ =>
    -- From here on the service answers alike, though the instances it holds need not be the same.
    refine indistinct_bind_eq indistinct_log fun _ => ?_
    have hinsert := h.insertion s.project s.zone (s.machine.similar_request s.project data data')
    refine indistinct_bind_eq (World.indistinct_onCompute hinsert) fun r => ?_
    cases r with
    | error e => exact indistinct_pure rfl
    | ok o =>
      refine indistinct_bind_eq (wait_indistinct h s.project s.zone o.name) fun x => ?_
      cases x with
      | error e => exact indistinct_pure rfl
      | ok _ => exact indistinct_bind_eq indistinct_log fun _ => indistinct_pure rfl

theorem create_indistinct (s : Scope) :
    Indistinct (World.Like L) Eq ({ c with secrets := k }.create s)
      ({ c with secrets := k' }.create s) := by
  rw [create_eq, create_eq]
  refine indistinct_bind_eq (holding_indistinct (attempt_indistinct h hk s)) fun result => ?_
  exact indistinct_bind_eq (tell_indistinct s result) fun s' => conclude_indistinct h result s'

theorem performOn_create_indistinct (s : Scope) :
    Indistinct (World.Like L) Eq ({ c with secrets := k }.performOn .create s)
      ({ c with secrets := k' }.performOn .create s) := by
  rw [performOn_eq, performOn_eq]
  refine indistinct_bind_eq (create_indistinct h hk s) fun x => ?_
  obtain ⟨r, s'⟩ := x
  cases r with
  | ok _ => exact release_indistinct (c := c) .create (.ok ()) s'
  | error e =>
    exact indistinct_bind_eq indistinct_log fun _ =>
      release_indistinct (c := c) .create (.error e) s'

theorem perform_create_indistinct (m : Machine) :
    Indistinct (World.Like L) Eq ({ c with secrets := k }.perform .create m)
      ({ c with secrets := k' }.perform .create m) := by
  unfold perform
  refine indistinct_bind_eq indistinct_log fun _ => ?_
  dsimp only
  cases Scope.acquire c.defaultProject m with
  | error e => exact indistinct_pure rfl
  | ok s => exact performOn_create_indistinct h hk s

end Secrets

/-- Making an instance on the mock, with these secrets in memory and a journal of what is
written. -/
def creation (c : Collaborators Mock τ) (secrets : SecretTable) (m : Machine) :
    Timed (World Mock (List Write × τ)) (Outcome Unit) :=
  { c with service := Mock.service, secrets := .memory secrets }.journaled.perform .create m

/-- The journal leaves the secrets aside. -/
theorem creation_eq (c : Collaborators Mock τ) (secrets : SecretTable) (m : Machine) :
    c.creation secrets m =
      { ({ c with service := Mock.service } : Collaborators Mock τ).journaled with
        secrets := (SecretStore.memory secrets).beside }.perform .create m := rfl

theorem creation_indistinct (c : Collaborators Mock τ) {table table' : SecretTable}
    (h : table.SameKeys table') (m : Machine) :
    Indistinct (World.Like Mock.Similar) Eq (c.creation table m) (c.creation table' m) := by
  have hk : (SecretStore.memory table : SecretStore τ).beside.SameKeys
      (SecretStore.memory table').beside :=
    (SecretStore.memory_sameKeys h).beside
  have hperform := perform_create_indistinct (c := { c with service := Mock.service }.journaled)
    Mock.service_conceals hk m
  rw [creation_eq, creation_eq]
  exact hperform

/-- Whatever the bytes of the secrets, the answer is the same and so are the clock, the log lines,
the events and what is written; the calls are the same but for the boot data of the instance that is
asked for. -/
theorem creation_secrecy (c : Collaborators Mock τ) {table table' : SecretTable}
    (h : table.SameKeys table') (m : Machine) (t : Timeline (World Mock (List Write × τ))) :
    (exec (c.creation table m) t).1 = (exec (c.creation table' m) t).1 ∧
      (exec (c.creation table m) t).2.now = (exec (c.creation table' m) t).2.now ∧
      (exec (c.creation table m) t).2.log = (exec (c.creation table' m) t).2.log ∧
      (exec (c.creation table m) t).2.world.events = (exec (c.creation table' m) t).2.world.events ∧
      (exec (c.creation table m) t).2.world.storage =
        (exec (c.creation table' m) t).2.world.storage ∧
      List.Forall₂ Call.Similar (exec (c.creation table m) t).2.world.compute.calls.toList
        (exec (c.creation table' m) t).2.world.compute.calls.toList := by
  have hstart : World.Like Mock.Similar t.world t.world := ⟨.refl _, rfl, rfl⟩
  have hrun : Twin (World.Like Mock.Similar) Eq (exec (c.creation table m) t)
      (exec (c.creation table' m) t) :=
    creation_indistinct c h m t.now t.log hstart
  obtain ⟨hanswer, hnow, hlog, hworld⟩ := hrun.same
  exact ⟨hanswer, hnow, hlog, hworld.events, hworld.storage, hworld.compute.calls⟩

end Collaborators

theorem SecretTable.sameKeys_furnished (bytes bytes' : Bytes) :
    (furnished bytes).SameKeys (furnished bytes') := by
  refine Table.Rel.insert (.refl (fun _ _ => rfl) ∅) _ fun key => ?_
  change (List.lookup key [(bootDataKey, bytes)]).isSome =
    (List.lookup key [(bootDataKey, bytes')]).isSome
  simp only [List.lookup_cons, List.lookup_nil]
  split <;> rfl

namespace Collaborators

theorem creation_secrecy_furnished :
    (SecretTable.furnished [1, 2]).SameKeys (.furnished [255]) ∧
      (exec ((inMemory default (some "lab")).creation (.furnished [1, 2]) .furnished)
          (World.start .new ([], .empty))).2.log =
        (exec ((inMemory default (some "lab")).creation (.furnished [255]) .furnished)
          (World.start .new ([], .empty))).2.log ∧
      List.Forall₂ Call.Similar
        (exec ((inMemory default (some "lab")).creation (.furnished [1, 2]) .furnished)
          (World.start .new ([], .empty))).2.world.compute.calls.toList
        (exec ((inMemory default (some "lab")).creation (.furnished [255]) .furnished)
          (World.start .new ([], .empty))).2.world.compute.calls.toList := by
  have h := SecretTable.sameKeys_furnished [1, 2] [255]
  obtain ⟨_, _, hlog, _, _, hcalls⟩ :=
    creation_secrecy (inMemory default (some "lab")) h .furnished (World.start .new ([], .empty))
  exact ⟨h, hlog, hcalls⟩

end Collaborators

end Provision
