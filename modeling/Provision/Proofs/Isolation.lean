import Provision.Proofs.Keyed
import Provision.Proofs.OnMock

/-!
Machines at different keys do not disturb each other. What is done for the one leaves the instances
at all other keys as they are; and what is done for the other afterwards comes out as it would have
before, but for the numbers in the names of operations.
-/
namespace Provision

open Timed

/-- Where the service keeps the instance of a machine. -/
def Machine.key (default? : Option String) (m : Machine) : InstanceKey :=
  (Scope.projectOf default? m, m.spec.zone, m.name)

theorem Scope.key_of_acquire {default? : Option String} {m : Machine} {s : Scope}
    (h : acquire default? m = .ok s) : s.key = m.key default? := by
  obtain ⟨_, rfl⟩ := acquire_eq_ok.mp h
  rfl

/-- As long after a whole millisecond. -/
def Instant.InPhase (n n' : Instant) : Prop := n.nanos % 1000000 = n'.nanos % 1000000

/-- The action takes no time, and leads to related worlds only. -/
def Timed.Still {ω α : Type} (R : ω → ω → Prop) (act : Timed ω α) : Prop :=
  ∀ t, (exec act t).2.now = t.now ∧ R t.world (exec act t).2.world

namespace Timed.Still

variable {τ α : Type} {R : τ → τ → Prop}

/-- What an action does to the second part of a pair takes no time either. -/
theorem beside {π : Type} {act : Timed τ α} (h : Still R act) :
    Still (fun p p' : π × τ => R p.2 p'.2) (within (·.2) (fun x p => (p.1, x)) act) := by
  intro t
  have hact := h ⟨t.now, t.log, t.world.2⟩
  rcases hrun : exec act ⟨t.now, t.log, t.world.2⟩ with ⟨r, u⟩
  rw [hrun] at hact
  rw [exec_within hrun]
  exact hact

theorem journaled {k : MachineStore τ} {m : Machine} (h : Still R (k m)) :
    Still (fun p p' => R p.2 p'.2) (k.journaled m) := by
  intro t
  have hact := h.beside (π := List Write) t
  unfold MachineStore.journaled
  rcases hrun : exec (within (·.2) (fun x (p : List Write × τ) => (p.1, x)) (k m)) t with ⟨e | r, u⟩
  · rw [hrun] at hact
    rw [exec_bind_of_error hrun]
    exact hact
  · rw [hrun] at hact
    rw [exec_bind_of_ok hrun]
    exact hact

end Timed.Still

namespace Collaborators

variable {σ τ : Type}

/-- Actions on machines, one after the other. -/
def performAll (c : Collaborators σ τ) : List (Action × Machine) → Timed (World σ τ) Unit
  | [] => return
  | (a, m) :: ops => do
    let _ ← c.perform a m
    c.performAll ops

/-- What is looked up and written for machines at the key leads to states of the storage only that
are the same to the machine `b`, whose own look-ups and writes come out alike in such states. -/
structure Secludes (c : Collaborators σ τ) (Same : τ → τ → Prop) (k : InstanceKey)
    (b : Machine) : Prop where
  refl : ∀ x, Same x x
  trans : ∀ {x y z}, Same x y → Same y z → Same x z
  lookUp : ∀ m : Machine, m.key c.defaultProject = k → ∀ name, Still Same (c.secrets m.ns name)
  write : ∀ m : Machine, m.key c.defaultProject = k → Still Same (c.machines m)
  lookUpFor : ∀ name {t t' : Timeline τ}, Same t.world t'.world →
    Abreast (c.secrets b.ns name) (c.secrets b.ns name) t t' fun r u r' u' =>
      r = r' ∧ u.now = t.now ∧ u'.now = t'.now ∧ Same u.world u'.world
  writeFor : ∀ st {t t' : Timeline τ}, Same t.world t'.world →
    Abreast (c.machines (b.withStatus st)) (c.machines (b.withStatus st)) t t' fun r u r' u' =>
      r = r' ∧ u.now = t.now ∧ u'.now = t'.now ∧ Same u.world u'.world

/-- Machines in memory do not get into each other's way: nothing that is written is read again. -/
theorem secludes_memory {c : Collaborators σ MachineTable} {table : SecretTable}
    (hk : c.secrets = .memory table) (hm : c.machines = .memory) (k : InstanceKey) (b : Machine) :
    c.Secludes (fun _ _ => True) k b where
  refl _ := trivial
  trans _ _ := trivial
  lookUp m _ name t := by
    rw [hk]
    exact ⟨rfl, trivial⟩
  write m _ t := by
    rw [hm]
    exact ⟨rfl, trivial⟩
  lookUpFor name t t' _ := by
    rw [hk]
    exact abreast_pure ⟨rfl, rfl, rfl, trivial⟩
  writeFor st t t' _ := by
    rw [hm]
    exact .answer (exec_update ..) (exec_update ..) ⟨rfl, rfl, rfl, trivial⟩

end Collaborators

section Spared

variable {τ : Type} {Same : τ → τ → Prop} {k : InstanceKey}
  {t₀ t : Timeline (World Mock (List Write × τ))}

/-- Nothing has happened since `t₀` but to the instance at the key. -/
structure Spared (Same : τ → τ → Prop) (k : InstanceKey)
    (t₀ t : Timeline (World Mock (List Write × τ))) : Prop where
  compute : t₀.world.compute.Frame k t.world.compute
  rest : Same t₀.world.storage.2 t.world.storage.2
  clock : t₀.now.IsWhole → t.now.IsWhole

theorem Spared.keepsLines : KeepsLines (Spared Same k t₀) :=
  fun _ _ _ ht => ⟨ht.compute, ht.rest, ht.clock⟩

namespace Collaborators

variable {c : Collaborators Mock τ} {b : Machine} (hservice : c.service = Mock.service)

/-- A part of the service that spares other instances does so in the world. -/
theorem onCompute_spared {α : Type} {act : Timed Mock α}
    (hact : Keeps
      (fun v => t₀.world.compute.Frame k v.world ∧ (t₀.now.IsWhole → v.now.IsWhole)) act) :
    Keeps (Spared Same k t₀) (World.onCompute act) :=
  keeps_within (P :=
    fun w v => Same t₀.world.storage.2 w.storage.2 ∧ t₀.world.compute.Frame k v.world ∧
      (t₀.now.IsWhole → v.now.IsWhole))
    (fun _ v hv => ⟨hv.1, hact v hv.2⟩) (fun _ ht => ⟨ht.rest, ht.compute, ht.clock⟩)
    fun _ _ hv => ⟨hv.2.1, hv.1, hv.2.2⟩

theorem service_spared (t₀ : Timeline (World Mock (List Write × τ))) {q : Call}
    (hq : ∀ k', q.target? = some k' → k' = k) :
    Keeps (fun v => t₀.world.compute.Frame k v.world ∧ (t₀.now.IsWhole → v.now.IsWhole))
      (Mock.service q) :=
  Mock.service_keeps (fun _ _ _ hv => hv) fun _ hv => ⟨hv.1.trans (Mock.reply_frame hq), hv.2⟩

/-- What is done with the storage for a machine at the key is spared the others. -/
theorem onStorage_spared (h : c.Secludes Same k b) {α : Type} {act : Timed (List Write × τ) α}
    (hact : Still (fun p p' => Same p.2 p'.2) act) :
    Keeps (Spared Same k t₀) (World.onStorage act) := by
  intro t ht
  obtain ⟨hnow, hsame⟩ := hact ⟨t.now, t.log, t.world.storage⟩
  rcases hrun : exec act ⟨t.now, t.log, t.world.storage⟩ with ⟨r, u⟩
  rw [hrun] at hnow hsame
  unfold World.onStorage
  rw [exec_within hrun]
  refine ⟨ht.compute, h.trans ht.rest hsame, fun hwhole => ?_⟩
  have hwhole' := ht.clock hwhole
  rwa [← hnow] at hwhole'

section Runs

include hservice

theorem spared_sustains (h : c.Secludes Same k b) {s : Scope} (hs : s.key = k)
    (hm : s.machine.key c.defaultProject = k) : c.journaled.Sustains s (Spared Same k t₀) := by
  have hcall : ∀ q, (∀ k', q.target? = some k' → k' = k) →
      Keeps (Spared Same k t₀) (c.journaled.call q) := by
    intro q hq
    have hact := service_spared t₀ hq
    rw [← hservice] at hact
    exact onCompute_spared hact
  have htarget : ∀ k', some s.key = some k' → k' = k := by
    intro k' hk'
    rw [← Option.some.inj hk', hs]
  exact {
    lines := Spared.keepsLines
    zoning := hcall _ nofun
    reading := hcall _ nofun
    insertion := fun _ => hcall _ htarget
    removal := hcall _ htarget
    wait := fun operation => by
      have hact := service_spared (k := k) (q := .getOperation s.project s.zone operation) t₀ nofun
      rw [← hservice] at hact
      exact onCompute_spared (Service.wait_keeps hact (fun _ _ _ hv => hv)
        (keeps_sleep fun v hv => ⟨hv.1, fun _ => isWhole_wake v.now _⟩))
    secret := fun name => onStorage_spared h (h.lookUp _ hm name).beside
    record := fun _ => World.record_keeps (fun _ ht => ⟨ht.compute, ht.rest, ht.clock⟩)
      fun _ _ _ ht => ⟨ht.compute, ht.rest, ht.clock⟩ }

/-- Actions on machines at the key, in any number, spare all else, also when they are cut short. -/
theorem performAll_spared (hk : c.secrets.Answers) (h : c.Secludes Same k b)
    (ops : List (Action × Machine)) (hops : ∀ op ∈ ops, op.2.key c.defaultProject = k) :
    Keeps (Spared Same k t₀) (c.journaled.performAll ops) := by
  induction ops with
  | nil => exact keeps_pure _
  | cons op ops ih =>
    obtain ⟨a, m⟩ := op
    have hm : m.key c.defaultProject = k := hops (a, m) List.mem_cons_self
    refine keeps_bind ?_ fun _ => ih fun op hop => hops op (List.mem_cons_of_mem _ hop)
    refine perform_keeps (journaled_service_answers hservice) hk.beside Spared.keepsLines
      (fun s hacq => ?_) (fun st => ?_) a
    · have hsm := Scope.machine_of_acquire hacq
      exact spared_sustains hservice h ((Scope.key_of_acquire hacq).trans hm) (hsm ▸ hm)
    · exact onStorage_spared h (h.write (m.withStatus st) hm).journaled

end Runs

end Collaborators

end Spared

section InStep

variable {τ : Type} {Same : τ → τ → Prop} {k : InstanceKey} {d d' : Nat}
  {w₀ w₀' : World Mock (List Write × τ)}
  {t t' : Timeline (World Mock (List Write × τ))}

/-- Two timelines, since they were at `w₀` and `w₀'`, in which a machine at the key sees no
difference. -/
structure InStep (Same : τ → τ → Prop) (k : InstanceKey) (d d' : Nat)
    (w₀ w₀' : World Mock (List Write × τ)) (t t' : Timeline (World Mock (List Write × τ))) :
    Prop where
  clock : t.now.Level d d' t'.now
  compute : t.world.compute.Akin k t'.world.compute
  rest : Same t.world.storage.2 t'.world.storage.2
  events : ∃ es, t.world.events = w₀.events ++ es ∧ t'.world.events = w₀'.events ++ es
  written : ∃ ws, t.world.storage.1 = w₀.storage.1 ++ ws ∧ t'.world.storage.1 = w₀'.storage.1 ++ ws

theorem InStep.bearsLines : BearsLines (InStep Same k d d' w₀ w₀') :=
  fun _ _ _ _ ht => ⟨ht.clock, ht.compute, ht.rest, ht.events, ht.written⟩

theorem InStep.event (h : InStep Same k d d' w₀ w₀' t t') (e : Event) :
    InStep Same k d d' w₀ w₀' { t with world := { t.world with events := t.world.events ++ [e] } }
      { t' with world := { t'.world with events := t'.world.events ++ [e] } } := by
  obtain ⟨es, he, he'⟩ := h.events
  refine ⟨h.clock, h.compute, h.rest, ⟨es ++ [e], ?_, ?_⟩, h.written⟩
  · rw [he, List.append_assoc]
  · rw [he', List.append_assoc]

namespace Collaborators

variable {c : Collaborators Mock τ} {b : Machine} (hservice : c.service = Mock.service)

section Service

include hservice

theorem call_abreast (ht : InStep Same k d d' w₀ w₀' t t') (q : Call)
    (hq : (t.world.compute.reply q).2.Akin k (t'.world.compute.reply q).2) :
    Abreast (c.journaled.call q) (c.journaled.call q) t t' fun r u r' u' =>
      InStep Same k d d' w₀ w₀' u u' ∧ (r, u.world.compute) = t.world.compute.reply q ∧
        (r', u'.world.compute) = t'.world.compute.reply q := by
  have hs : c.journaled.service = Mock.service := hservice
  unfold call World.onCompute
  rw [hs]
  refine abreast_within (abreast_of_ends (Mock.service_ends q) (Mock.service_ends q)
    fun r v r' v' hv hv' => And.intro hv hv') ?_
  rintro r v r' v' ⟨⟨hn, hr⟩, hn', hr'⟩
  rw [← hr, ← hr'] at hq
  refine ⟨⟨?_, hq, ht.rest, ht.events, ht.written⟩, hr, hr'⟩
  rw [hn, hn']
  exact ht.clock

theorem wait_abreast (ht : InStep Same k d d' w₀ w₀' t t') (project zone : String) {o o' : String}
    (hn : Mock.Renamed o o') (htracks : t.world.compute.Tracks t'.world.compute o o') :
    Abreast (c.journaled.wait project zone o) (c.journaled.wait project zone o') t t'
      fun x u x' u' =>
        InStep Same k d d' w₀ w₀' u u' ∧ Matched (ActuatorError.Alike Mock.Renamed)
          (fun _ _ => True) x x' := by
  let M : Timeline Mock → Timeline Mock → Prop := fun v v' =>
    v.now.Level d d' v'.now ∧ v.world.Akin k v'.world ∧ v.world.Tracks v'.world o o'
  have hlasts : Lasts d d' c.polling.interval M :=
    ⟨fun _ _ _ _ hv => hv, fun hv => hv.1, fun hv => ⟨hv.1.wake _, hv.2⟩⟩
  have hfetch : ∀ {v v'}, M v v' → Abreast (Mock.service (.getOperation project zone o))
      (Mock.service (.getOperation project zone o')) v v' fun r u r' u' =>
      M u u' ∧ Matched Eq (Operation.Alike Mock.Renamed) r r' := by
    rintro v v' ⟨hclock, hakin, htracks⟩
    refine abreast_of_ends (Mock.service_ends _) (Mock.service_ends _) ?_
    rintro r u r' u' ⟨hn, hr⟩ ⟨hn', hr'⟩
    obtain ⟨hreply, hakin', htracks'⟩ := hakin.reply_getOperation project zone htracks
    rw [← hr, ← hr'] at hreply hakin' htracks'
    refine ⟨⟨?_, hakin', htracks'⟩, hreply⟩
    rw [hn, hn']
    exact hclock
  have hs : c.journaled.service = Mock.service := hservice
  unfold wait World.onCompute
  rw [hs]
  refine abreast_within (Service.wait_abreast hn hlasts hfetch ⟨ht.clock, ht.compute, htracks⟩) ?_
  rintro x v x' v' ⟨⟨hclock, hakin, _⟩, hx⟩
  exact ⟨⟨hclock, hakin, ht.rest, ht.events, ht.written⟩, hx⟩

theorem starts_of_started (ht : InStep Same k d d' w₀ w₀' t t') (project zone : String)
    {r r' : Except ComputeError Operation}
    (h : Mock.Started k (r, t.world.compute) (r', t'.world.compute)) :
    c.journaled.Starts project zone Mock.Renamed (InStep Same k d d' w₀ w₀') r t r' t' := by
  cases h with
  | refused e => exact .refused e ht
  | granted _ hn htracks => exact .granted (wait_abreast hservice ht project zone hn htracks)

end Service

/-- What comes out alike in the second parts of pairs leaves the first parts as they are. -/
theorem beside_abreast {π α : Type} {act : Timed τ α} {p p' : Timeline (π × τ)}
    (h : Abreast act act ⟨p.now, p.log, p.world.2⟩ ⟨p'.now, p'.log, p'.world.2⟩ fun r u r' u' =>
      r = r' ∧ u.now = p.now ∧ u'.now = p'.now ∧ Same u.world u'.world) :
    Abreast (within (·.2) (fun x q => (q.1, x)) act) (within (·.2) (fun x q => (q.1, x)) act) p p'
      fun r u r' u' => r = r' ∧ u.now = p.now ∧ u'.now = p'.now ∧ Same u.world.2 u'.world.2 ∧
        u.world.1 = p.world.1 ∧ u'.world.1 = p'.world.1 :=
  abreast_within h fun _ _ _ _ ⟨hr, hn, hn', hsame⟩ => ⟨hr, hn, hn', hsame, rfl, rfl⟩

/-- What comes out alike in the storage does so in the world, and what is written besides is the
same. -/
theorem onStorage_abreast {α : Type} {act : Timed (List Write × τ) α}
    (ht : InStep Same k d d' w₀ w₀' t t') (written : α → List Write)
    (hact : Abreast act act ⟨t.now, t.log, t.world.storage⟩ ⟨t'.now, t'.log, t'.world.storage⟩
      fun r u r' u' =>
        r = r' ∧ u.now = t.now ∧ u'.now = t'.now ∧ Same u.world.2 u'.world.2 ∧
          u.world.1 = t.world.storage.1 ++ written r ∧
            u'.world.1 = t'.world.storage.1 ++ written r') :
    Abreast (World.onStorage act) (World.onStorage act) t t' fun r u r' u' =>
      InStep Same k d d' w₀ w₀' u u' ∧ r = r' := by
  unfold World.onStorage
  refine abreast_within hact ?_
  rintro r u r' u' ⟨rfl, hn, hn', hsame, hw, hw'⟩
  obtain ⟨ws, hws, hws'⟩ := ht.written
  refine ⟨⟨?_, ht.compute, hsame, ht.events, ws ++ written r, ?_, ?_⟩, rfl⟩
  · rw [hn, hn']
    exact ht.clock
  · rw [hw, hws, List.append_assoc]
  · rw [hw', hws', List.append_assoc]

section Secluded

variable {k₀ : InstanceKey} (h : c.Secludes Same k₀ b)

include h

theorem secret_abreast (ht : InStep Same k d d' w₀ w₀' t t') (name : String) :
    Abreast (c.journaled.secret b.ns name) (c.journaled.secret b.ns name) t t' fun r u r' u' =>
      InStep Same k d d' w₀ w₀' u u' ∧ r = r' := by
  refine onStorage_abreast ht (fun _ => []) ?_
  refine (beside_abreast (π := List Write) (p := ⟨t.now, t.log, t.world.storage⟩)
    (h.lookUpFor name ht.rest)).weaken ?_
  rintro r u r' u' ⟨hr, hn, hn', hsame, hw, hw'⟩
  exact ⟨hr, hn, hn', hsame, hw.trans (List.append_nil _).symm, hw'.trans (List.append_nil _).symm⟩

theorem write_abreast (ht : InStep Same k d d' w₀ w₀' t t') (st : MachineStatus) :
    Abreast (World.onStorage (c.journaled.machines (b.withStatus st)))
      (World.onStorage (c.journaled.machines (b.withStatus st))) t t' fun r u r' u' =>
      InStep Same k d d' w₀ w₀' u u' ∧ r = r' := by
  refine onStorage_abreast ht (fun r => [(b.withStatus st, r)]) ?_
  refine abreast_bind (beside_abreast (π := List Write) (p := ⟨t.now, t.log, t.world.storage⟩)
    (h.writeFor st ht.rest)) ?_
  rintro r u r' u' ⟨hr, hn, hn', hsame, hw, hw'⟩
  refine .answer (exec_update ..) (exec_update ..) ⟨hr, hn, hn', hsame, ?_, ?_⟩
  · rw [hw]
  · rw [hw']

include hservice in
/-- In step, all that may be done for a machine comes out alike. -/
theorem inStep_tallies {s : Scope} (hs : s.machine.ns = b.ns) :
    c.journaled.Tallies s Mock.Renamed (InStep Same s.key d d' w₀ w₀') where
  lines := InStep.bearsLines
  zoning ht := by
    obtain ⟨hreply, hakin⟩ := ht.compute.reply_getZone s.project s.zone
    refine (call_abreast hservice ht s.zoning hakin).weaken ?_
    rintro r u r' u' ⟨hu, hr, hr'⟩
    rw [← hr, ← hr'] at hreply
    exact ⟨hu, hreply⟩
  reading ht := by
    obtain ⟨hreply, hakin⟩ := ht.compute.reply_getInstance
    refine (call_abreast hservice ht s.reading hakin).weaken ?_
    rintro r u r' u' ⟨hu, hr, hr'⟩
    rw [← hr, ← hr'] at hreply
    refine ⟨hu, ?_⟩
    cases hreply with
    | error he => exact .error he
    | ok hi =>
      exact .ok ⟨Instance.name_eq_of_unnumbered hi, Instance.observation?_eq_of_unnumbered hi⟩
  insertion data t t' ht := by
    have hreply := Mock.Akin.reply_insertInstance (i := s.machine.request s.project data) ht.compute
    refine (call_abreast hservice ht (s.insertion data) hreply.akin).weaken ?_
    rintro r u r' u' ⟨hu, hr, hr'⟩
    refine starts_of_started hservice hu s.project s.zone ?_
    have hstarted : Mock.Started s.key (t.world.compute.reply (s.insertion data))
      (t'.world.compute.reply (s.insertion data)) := hreply
    rwa [← hr, ← hr'] at hstarted
  removal ht := by
    have hreply := ht.compute.reply_deleteInstance
    refine (call_abreast hservice ht s.removal hreply.akin).weaken ?_
    rintro r u r' u' ⟨hu, hr, hr'⟩
    rw [← hr, ← hr'] at hreply
    exact starts_of_started hservice hu s.project s.zone hreply
  secret name t t' ht := by
    rw [hs]
    exact secret_abreast h ht name
  record e _ _ ht := World.record_abreast InStep.bearsLines (fun ht => ht.event e) ht

end Secluded

end Collaborators

end InStep

/-- An action on the machine at the key came to the same in two runs, from `v` to `v'` and from `u`
to `u'`: the results are alike and the status is the same, the same events were recorded and the
same was written, and the instance is the same afterwards but for its number. -/
structure SameOutcome {τ α : Type} (k : InstanceKey) (y y' : Outcome α)
    (v v' u u' : World Mock (List Write × τ)) : Prop where
  result : Matched (ActuatorError.Alike Mock.Renamed) Eq y.result y'.result
  machine : y.machine = y'.machine
  events : ∃ es, v'.events = v.events ++ es ∧ u'.events = u.events ++ es
  written : ∃ ws, v'.storage.1 = v.storage.1 ++ ws ∧ u'.storage.1 = u.storage.1 ++ ws
  shown : (v'.compute.instances.find? k).map Instance.unnumbered =
    (u'.compute.instances.find? k).map Instance.unnumbered

namespace Collaborators

section Stops

variable {σ τ : Type} {c : Collaborators σ τ} (hs : c.service.Answers) (hk : c.secrets.Answers)
  (hm : c.machines.Answers fun _ => True)

include hs hk hm

theorem journaled_perform_stops (a : Action) (m : Machine)
    (t : Timeline (World σ (List Write × τ))) :
    Ends (fun e u => c.polling.Stops e u.now) (c.journaled.perform a m) t fun _ _ => True := by
  cases hacq : Scope.acquire c.defaultProject m with
  | error e => exact .answers (exec_perform_of_error (c := c.journaled) hacq t) trivial
  | ok s =>
    exact (journaled_perform_ends hs hk hm hacq t).mono (fun _ _ h => h.1) fun _ _ _ => trivial

theorem performAll_stops (ops : List (Action × Machine)) (t : Timeline (World σ (List Write × τ))) :
    Ends (fun e u => c.polling.Stops e u.now) (c.journaled.performAll ops) t fun _ _ => True := by
  induction ops generalizing t with
  | nil => exact ends_pure trivial
  | cons op ops ih =>
    exact ends_bind (journaled_perform_stops hs hk hm op.1 op.2 t) fun _ u _ => ih u

end Stops

variable {τ : Type} {c : Collaborators Mock τ} {Same : τ → τ → Prop} {k : InstanceKey} {b : Machine}

/-- In step, an action on a machine comes to the same. -/
theorem perform_inStep (hservice : c.service = Mock.service) (hk : c.secrets.Answers)
    (h : c.Secludes Same k b) (a : Action) {d d' : Nat}
    {t t' : Timeline (World Mock (List Write × τ))}
    (ht : InStep Same (b.key c.defaultProject) d d' t.world t'.world t t') :
    Abreast (c.journaled.perform a b) (c.journaled.perform a b) t t' fun y u y' u' =>
      SameOutcome (b.key c.defaultProject) y y' t.world u.world t'.world u'.world := by
  refine (perform_abreast (N := Mock.Renamed) (journaled_service_answers hservice)
    hk.beside InStep.bearsLines
    (fun s hacq => ?_) (fun st _ _ ht => write_abreast h ht st) a ht).weaken ?_
  · have hsm := Scope.machine_of_acquire hacq
    have hkey : s.key = b.key c.defaultProject := Scope.key_of_acquire hacq
    rw [← hkey]
    exact inStep_tallies hservice h (by rw [hsm])
  · rintro y u y' u' ⟨hu, hr, hmachine⟩
    exact ⟨hr, hmachine, hu.events, hu.written, hu.compute.shown⟩

/-- Actions on machines at a key, in any number, leave the instances at all other keys as they are,
also when they are cut short. After them, an action on a machine at another key comes to the same as
without them, whether it starts at the same time or at another that differs by whole
milliseconds. -/
theorem performAll_isolated (hservice : c.service = Mock.service) (hk : c.secrets.Answers)
    (hm : c.machines.Answers fun _ => True) (h : c.Secludes Same k b)
    (hb : b.key c.defaultProject ≠ k) (ops : List (Action × Machine))
    (hops : ∀ op ∈ ops, op.2.key c.defaultProject = k)
    (t : Timeline (World Mock (List Write × τ))) :
    (∀ k', k' ≠ k → (exec (c.journaled.performAll ops) t).2.world.compute.instances.find? k' =
        t.world.compute.instances.find? k') ∧
      Ends (fun e u => c.polling.Stops e u.now) (c.journaled.performAll ops) t fun _ u =>
        (t.now.IsWhole → t.now.InPhase u.now) ∧
        ∀ (a : Action) (v : Timeline (World Mock (List Write × τ))), v.world = t.world →
          v.now.InPhase u.now →
          Ends (fun e v' => c.polling.Stops e v'.now) (c.journaled.perform a b) v fun y v' =>
            Ends (fun e u' => c.polling.Stops e u'.now) (c.journaled.perform a b) u fun y' u' =>
              SameOutcome (b.key c.defaultProject) y y' v.world v'.world u.world u'.world := by
  have hs : c.service.Answers := journaled_service_answers hservice
  have hspared : Keeps (Spared Same k t) (c.journaled.performAll ops) :=
    performAll_spared hservice hk h ops hops
  have hafter := hspared t ⟨.refl k _, h.refl _, fun hwhole => hwhole⟩
  refine ⟨hafter.compute.instances, ?_⟩
  cases performAll_stops hs hk hm ops t with
  | halts run hstop => exact .halts run hstop
  | @answers _ u run _ =>
    rw [run] at hafter
    refine .answers run ⟨fun hwhole => hwhole.trans (hafter.clock hwhole).symm,
      fun a v hv hclock => ?_⟩
    have hstep : InStep Same (b.key c.defaultProject) _ _ v.world u.world v u := {
      clock := .of_mod_eq hclock
      compute := by
        rw [hv]
        exact hafter.compute.akin hb
      rest := by
        rw [hv]
        exact hafter.rest
      events := ⟨[], (List.append_nil _).symm, (List.append_nil _).symm⟩
      written := ⟨[], (List.append_nil _).symm, (List.append_nil _).symm⟩ }
    exact (perform_inStep hservice hk h a hstep).ends (journaled_perform_stops hs hk hm a b v)
      (journaled_perform_stops hs hk hm a b u)

end Collaborators

/-- Another small machine. -/
def Machine.small' : Machine := { small with metadata := ⟨"worker-1", "default"⟩ }

namespace Collaborators

theorem performAll_isolated_inMemory :
    (inMemory default (some "lab")).service = Mock.service ∧
      (SecretStore.memory ∅ : SecretStore MachineTable).Answers ∧
        MachineStore.memory.Answers (fun _ => True) ∧
      (inMemory default (some "lab")).Secludes (fun _ _ => True)
      (Machine.small.key (some "lab")) .small' ∧
      Machine.small'.key (some "lab") ≠ Machine.small.key (some "lab") ∧
      (∀ op ∈ [(Action.create, Machine.small), (.delete, .small)],
        op.2.key (some "lab") = Machine.small.key (some "lab")) ∧
      (∀ k', k' ≠ Machine.small.key (some "lab") →
        (exec ((inMemory default (some "lab")).journaled.performAll
          [(.create, .small), (.delete, .small)])
          (World.start .new ([], .empty))).2.world.compute.instances.find? k' =
            Mock.new.instances.find? k') ∧
      Ends (fun e u => (default : PollConfig).Stops e u.now)
        ((inMemory default (some "lab")).journaled.performAll
          [(.create, .small), (.delete, .small)])
        (World.start .new ([], .empty)) fun _ u =>
        (Instant.start.IsWhole → Instant.start.InPhase u.now) ∧
        ∀ (a : Action) (v : Timeline (World Mock (List Write × MachineTable))),
          v.world = (World.start .new ([], .empty)).world → v.now.InPhase u.now →
          Ends (fun e v' => (default : PollConfig).Stops e v'.now)
            ((inMemory default (some "lab")).journaled.perform a .small') v fun y v' =>
            Ends (fun e u' => (default : PollConfig).Stops e u'.now)
              ((inMemory default (some "lab")).journaled.perform a .small') u fun y' u' =>
              SameOutcome (Machine.small'.key (some "lab")) y y' v.world v'.world
                u.world u'.world := by
  have hk : (SecretStore.memory ∅ : SecretStore MachineTable).Answers :=
    SecretStore.memory_answers ∅
  have hm : MachineStore.memory.Answers fun _ => True := MachineStore.memory_answers
  have h : (inMemory default (some "lab")).Secludes (fun _ _ => True)
      (Machine.small.key (some "lab")) .small' :=
    secludes_memory rfl rfl _ _
  have hb : Machine.small'.key (some "lab") ≠ Machine.small.key (some "lab") := by
    intro heq
    have hname : Machine.small'.name = Machine.small.name := congrArg (·.2.2) heq
    exact absurd hname (by decide)
  have hops : ∀ op ∈ [(Action.create, Machine.small), (.delete, .small)],
      op.2.key (some "lab") = Machine.small.key (some "lab") := by
    simp
  exact ⟨rfl, hk, hm, h, hb, hops,
    performAll_isolated (c := inMemory default (some "lab")) rfl hk hm h hb
      [(.create, .small), (.delete, .small)] hops (World.start .new ([], .empty))⟩

end Collaborators

end Provision
