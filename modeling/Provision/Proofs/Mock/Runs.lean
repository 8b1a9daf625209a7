import Provision.Proofs.Mock

/-!
Runs of the service in memory: calls and their replies in any order, and between them failures that
are set and cleared and instances that are put. Each deed starts one operation, looks at one, or
leaves all of them as they are; each id is drawn once.
-/
namespace Provision.Mock

/-- What is done to a mock: a call is made and replied to, all calls of a method are made to fail or
no longer, an instance is put. -/
inductive Deed where
  | exchange (e : Exchange)
  | failing (method : Method) (error : ComputeError)
  | clearing (method : Method)
  | seeding (project zone : String) (i : Instance)

namespace Deed

/-- The operation that is returned when an insertion or a removal succeeds. -/
def started? : Deed → Option Operation
  | .exchange ⟨.insertInstance _ _ _, .ok o⟩ => some o
  | .exchange ⟨.deleteInstance _ _ _, .ok o⟩ => some o
  | _ => none

/-- What a successful look at the operation of a name sees of it. -/
def seen? (name : String) : Deed → Option Operation
  | .exchange ⟨.getOperation _ _ n, .ok o⟩ => if n = name then some o else none
  | _ => none

/-- How many ids are drawn: one for an operation, and another for an instance that is made. -/
def ids : Deed → Nat
  | .exchange ⟨.insertInstance _ _ _, .ok _⟩ => 2
  | .exchange ⟨.deleteInstance _ _ _, .ok _⟩ => 1
  | _ => 0

end Deed

/-- The operations that were returned, in order. -/
def started (ds : List Deed) : List Operation := ds.filterMap Deed.started?

/-- What the successful looks at an operation saw, in order. -/
def sightings (name : String) (ds : List Deed) : List Operation := ds.filterMap (Deed.seen? name)

def idsDrawn : List Deed → Nat
  | [] => 0
  | d :: ds => d.ids + idsDrawn ds

section Lists

variable (name : String) (ds ds' : List Deed)

theorem started_append : started (ds ++ ds') = started ds ++ started ds' := List.filterMap_append

theorem sightings_append : sightings name (ds ++ ds') = sightings name ds ++ sightings name ds' :=
  List.filterMap_append

theorem idsDrawn_append : idsDrawn (ds ++ ds') = idsDrawn ds + idsDrawn ds' := by
  induction ds with
  | nil => exact (Nat.zero_add _).symm
  | cons d ds ih => rw [List.cons_append, idsDrawn, idsDrawn, ih, Nat.add_assoc]

end Lists

/-- A deed leads from one state of the mock to another. -/
inductive Does : Mock → Deed → Mock → Prop
  | exchange {m m' : Mock} {q : Call} {r : Reply q} (h : service.Step q m r m') :
      Does m (.exchange ⟨q, r⟩) m'
  | failing (m : Mock) (method : Method) (error : ComputeError) :
      Does m (.failing method error) (m.fail method error)
  | clearing (m : Mock) (method : Method) : Does m (.clearing method) (m.clearFailure method)
  | seeding (m : Mock) (project zone : String) (i : Instance) :
      Does m (.seeding project zone i) (m.seed project zone i)

/-- Deeds, in order, that lead from one state to another. -/
inductive Run : Mock → List Deed → Mock → Prop
  | nil (m : Mock) : Run m [] m
  | cons {m m' m'' : Mock} {d : Deed} {ds : List Deed} (first : Does m d m')
      (rest : Run m' ds m'') : Run m (d :: ds) m''

theorem Run.of_append {m m'' : Mock} {ds ds' : List Deed} (h : Run m (ds ++ ds') m'') :
    ∃ m', Run m ds m' ∧ Run m' ds' m'' := by
  induction ds generalizing m with
  | nil => exact ⟨m, .nil m, h⟩
  | cons d ds ih =>
    cases h with
    | cons first rest =>
      obtain ⟨m', hds, hds'⟩ := ih rest
      exact ⟨m', .cons first hds, hds'⟩

/-- A mock before anything is done to it: how long operations stay under way, how they end, and what
zones are missing. -/
def prepared (polls : Nat) (faults : List OperationFault) (zones : List (String × String)) : Mock :=
  { new with pendingPolls := polls, operationFaults := faults, missingZones := zones }

section Replies

variable {m m' : Mock} {q : Call}

/-- Every call has a reply, and only one. -/
theorem step_iff {r : Reply q} : service.Step q m r m' ↔ (r, m') = m.reply q := by
  refine ⟨reply_of_step, fun h => ?_⟩
  obtain ⟨r', u, -, hstep, -⟩ := (service_answers.ends q ⟨.start, #[], m⟩).returns
  cases h.trans (reply_of_step hstep).symm
  exact hstep

theorem step_reply (m : Mock) (q : Call) : service.Step q m (m.reply q).1 (m.reply q).2 :=
  step_iff.mpr rfl

theorem Does.of_reply {r : Reply q} (h : (m.reply q).1 = r) :
    Does m (.exchange ⟨q, r⟩) (m.reply q).2 :=
  h ▸ .exchange (step_reply m q)

theorem reply_injected {e : ComputeError} (h : m.failures.find? q.method = some e) :
    m.reply q = (.error e, m.noted q) := by
  rw [reply_eq, h]

end Replies

section Operations

variable {m m' : Mock} {d : Deed}

/-- The name of an operation that is started with an id. -/
def nameWithId (kind : String) (id : Nat) : String := "operation-" ++ kind ++ "-" ++ toString id

/-- The kinds of operations have names of one length, so that the id can be told from the name. -/
theorem nameWithId_inj {kind kind' : String} (hkind : kind.length = kind'.length) {id id' : Nat}
    (h : nameWithId kind id = nameWithId kind' id') : id = id' := by
  have hchars := congrArg String.toList h
  simp only [nameWithId, String.toList_append, List.append_assoc] at hchars
  have hlength : kind.toList.length = kind'.toList.length := by
    rwa [String.length_toList, String.length_toList]
  obtain ⟨-, hrest⟩ := List.append_inj (List.append_cancel_left hchars) hlength
  have hdigits := List.append_cancel_left hrest
  simp only [Nat.toString_eq_repr, Nat.toList_repr] at hdigits
  rw [← Nat.ofDigitChars_ten_toDigits (n := id), hdigits, Nat.ofDigitChars_ten_toDigits]

/-- What a deed does to the operations: it starts one under an id of its own, polls one, or leaves
all as they are. -/
inductive Touches (m : Mock) (d : Deed) (m' : Mock) : Prop
  | starts {o : Operation} {kind : String} (hkind : kind.length = 6)
      (hstarted : d.started? = some o) (hseen : ∀ name, d.seen? name = none)
      (hname : o.name = nameWithId kind m'.nextId.toNat) (hids : 0 < d.ids)
      (hfaults : o.faults = none)
      (hops : m'.operations = m.operations.insert o.name ⟨o, m.pendingPolls⟩)
  | polls {name : String} {x : TrackedOperation} (hstarted : d.started? = none)
      (hseen : ∀ n, d.seen? n = if n = name then
        some (x.poll m.operationFaults).operation else none)
      (hfind : m.operations.find? name = some x) (hids : d.ids = 0)
      (hops : m'.operations = m.operations.insert name (x.poll m.operationFaults))
  | leaves (hstarted : d.started? = none) (hseen : ∀ name, d.seen? name = none) (hids : d.ids = 0)
      (hops : m'.operations = m.operations)

/-- No operation is forgotten. -/
theorem Touches.find?_ne_none (h : m.Touches d m') {name : String}
    (hfind : m.operations.find? name ≠ none) :
    m'.operations.find? name ≠ none := by
  obtain ⟨-, -, -, -, -, -, hops⟩ | ⟨-, -, -, -, hops⟩ | ⟨-, -, -, hops⟩ := h
  · rw [hops, Table.find?_insert]
    split <;> simp [hfind]
  · rw [hops, Table.find?_insert]
    split <;> simp [hfind]
  · rwa [hops]

/-- What is returned or seen is known from then on. -/
theorem Touches.known (h : m.Touches d m') {name : String}
    (hd : (∃ o, d.started? = some o ∧ o.name = name) ∨ d.seen? name ≠ none) :
    m'.operations.find? name ≠ none := by
  obtain ⟨-, hstarted, hseen, -, -, -, hops⟩ | ⟨hstarted, hseen, -, -, hops⟩ |
    ⟨hstarted, hseen, -, -⟩ := h
  · obtain ⟨o, ho, rfl⟩ := hd.resolve_right fun hne => hne (hseen name)
    cases hstarted.symm.trans ho
    simp [hops]
  · have hne := hd.resolve_left fun ⟨o, ho, _⟩ => by cases hstarted.symm.trans ho
    rw [hseen] at hne
    split at hne
    next heq => simp [hops, heq]
    · exact absurd rfl hne
  · obtain ⟨o, ho, -⟩ | hne := hd
    · cases hstarted.symm.trans ho
    · exact absurd (hseen name) hne

/-- All that a deed does to what is kept of operations. No deed changes how they go. -/
structure Effect (m : Mock) (d : Deed) (m' : Mock) : Prop where
  pendingPolls : m'.pendingPolls = m.pendingPolls
  operationFaults : m'.operationFaults = m.operationFaults
  nextId : m'.nextId = m.nextId + .ofNat d.ids
  touches : m.Touches d m'

theorem Effect.of_noted {q : Call} (h : (m.noted q).Effect d m') : m.Effect d m' := by
  refine ⟨h.pendingPolls, h.operationFaults, h.nextId, ?_⟩
  obtain ⟨hkind, hstarted, hseen, hname, hids, hfaults, hops⟩ |
    ⟨hstarted, hseen, hfind, hids, hops⟩ |
    ⟨hstarted, hseen, hids, hops⟩ := h.touches
  · exact .starts hkind hstarted hseen hname hids hfaults hops
  · exact .polls hstarted hseen hfind hids hops
  · exact .leaves hstarted hseen hids hops

theorem effect_of_leaves (hstarted : d.started? = none) (hseen : ∀ name, d.seen? name = none)
    (hids : d.ids = 0)
    (hm : m'.pendingPolls = m.pendingPolls ∧ m'.operationFaults = m.operationFaults ∧
      m'.nextId = m.nextId ∧
      m'.operations = m.operations) : m.Effect d m' where
  pendingPolls := hm.1
  operationFaults := hm.2.1
  nextId := by simp [hm.2.2.1, hids]
  touches := .leaves hstarted hseen hids hm.2.2.2

theorem effect_error (m : Mock) (q : Call) (e : ComputeError) :
    m.Effect (.exchange ⟨q, .error e⟩) m := by
  cases q <;> exact effect_of_leaves rfl (fun _ => rfl) rfl ⟨rfl, rfl, rfl, rfl⟩

theorem handle_effect (m : Mock) (q : Call) :
    m.Effect (.exchange ⟨q, (m.handle q).1⟩) (m.handle q).2 := by
  cases q with
  | insertInstance project zone i =>
    simp only [handle]
    split
    · exact effect_error m _ _
    · exact ⟨rfl, rfl, UInt64.add_assoc .., .starts rfl rfl (fun _ => rfl) rfl Nat.two_pos rfl rfl⟩
  | getInstance project zone name =>
    simp only [handle]
    split
    · exact effect_of_leaves rfl (fun _ => rfl) rfl ⟨rfl, rfl, rfl, rfl⟩
    · exact effect_error m _ _
  | deleteInstance project zone name =>
    simp only [handle]
    split
    · exact ⟨rfl, rfl, rfl, .starts rfl rfl (fun _ => rfl) rfl Nat.one_pos rfl rfl⟩
    · exact effect_error m _ _
  | getZone project zone =>
    simp only [handle]
    split
    · exact effect_error m _ _
    · exact effect_of_leaves rfl (fun _ => rfl) rfl ⟨rfl, rfl, rfl, rfl⟩
  | getOperation project zone name =>
    simp only [handle]
    split
    next x hx =>
      refine ⟨rfl, rfl, (UInt64.add_zero _).symm, .polls rfl (fun n => ?_) hx rfl rfl⟩
      simp only [Deed.seen?, eq_comm]
    · exact effect_error m _ _

theorem reply_effect (m : Mock) (q : Call) :
    m.Effect (.exchange ⟨q, (m.reply q).1⟩) (m.reply q).2 := by
  rw [reply_eq]
  split
  · exact (effect_error _ _ _).of_noted
  · exact (handle_effect _ _).of_noted

theorem Does.effect (h : Does m d m') : m.Effect d m' := by
  cases h with
  | @exchange _ q _ h =>
    have heffect := reply_effect m q
    rwa [← reply_of_step h] at heffect
  | failing | clearing | seeding =>
    exact effect_of_leaves rfl (fun _ => rfl) rfl ⟨rfl, rfl, rfl, rfl⟩

end Operations

end Provision.Mock
