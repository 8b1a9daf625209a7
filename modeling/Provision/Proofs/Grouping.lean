import Mathlib.Data.List.Sort
import Provision.Proofs.Creation.Conclusion
import Provision.Proofs.Violations

/-!
Violations in groups. What is told of them depends on the single ones and on their order, and not on
how they are grouped, as long as no group is empty.
-/
namespace Provision

open Timed

namespace ValidationError

/-- What stands at the end of a path, which says of each group with which of its members to go
on. -/
def at? : ValidationError → List Nat → Option ValidationError
  | e, [] => some e
  | .field _, _ :: _ => none
  | .multiple es, i :: path => es[i]?.bind (at? · path)

/-- No group is empty. -/
def Full (e : ValidationError) : Prop := ∀ path, e.at? path ≠ some (.multiple [])

/-- These are the single violations that stand anywhere, from left to right: in the order of the
paths to them. -/
def HasLeaves (e : ValidationError) (vs : List Violation) : Prop :=
  ∃ leaves : List (List Nat × Violation), leaves.Pairwise (fun a b => a.1 < b.1) ∧
    (∀ path v, (path, v) ∈ leaves ↔ e.at? path = some (.field v)) ∧ leaves.map Prod.snd = vs

/-- What holds of single violations, and of groups when it does of their members, holds of all. -/
theorem induction {P : ValidationError → Prop} (field : ∀ v, P (.field v))
    (multiple : ∀ es, (∀ e ∈ es, P e) → P (.multiple es)) (e : ValidationError) : P e :=
  ValidationError.rec (motive_2 := fun es => ∀ e ∈ es, P e) field multiple (List.forall_mem_nil P)
    (fun _ _ he hes => List.forall_mem_cons.mpr ⟨he, hes⟩) e

theorem violations_multiple (es : List ValidationError) :
    (multiple es).violations = es.flatMap violations := by
  rw [violations]
  induction es with
  | nil => rfl
  | cons e es ih => rw [violationsOfAll, ih, List.flatMap_cons]

theorem message_multiple (es : List ValidationError) :
    (multiple es).message = String.intercalate "; " (es.map message) := by
  rw [message]
  congr 1
  induction es with
  | nil => rfl
  | cons e es ih => rw [messages, ih, List.map_cons]

theorem full_field (v : Violation) : (field v).Full := by
  intro path
  cases path <;> simp [at?]

theorem full_multiple_iff {es : List ValidationError} :
    (multiple es).Full ↔ es ≠ [] ∧ ∀ e ∈ es, e.Full := by
  constructor
  · intro h
    refine ⟨fun hnil => h [] (by rw [hnil, at?]), fun e he path hpath => ?_⟩
    obtain ⟨i, hi⟩ := List.mem_iff_getElem?.mp he
    exact h (i :: path) (by rw [at?, hi, Option.bind_some, hpath])
  · rintro ⟨hne, hes⟩ path
    match path with
    | [] => simpa [at?] using hne
    | i :: path =>
      intro hpath
      obtain ⟨e, he, hpath⟩ := Option.bind_eq_some_iff.mp hpath
      exact hes e (List.mem_of_getElem? he) path hpath

section Leaves

/-- A single violation stands at the path in the members, of which the first has the number `i`. -/
def IsLeafOf (es : List ValidationError) (i : Nat) (path : List Nat) (v : Violation) : Prop :=
  ∃ j e, es[j]? = some e ∧ ∃ rest, path = (i + j) :: rest ∧ e.at? rest = some (.field v)

theorem isLeafOf_cons {e : ValidationError} {es : List ValidationError} {i : Nat}
    {path : List Nat} {v : Violation} :
    IsLeafOf (e :: es) i path v ↔
      (∃ rest, path = i :: rest ∧ e.at? rest = some (.field v)) ∨ IsLeafOf es (i + 1) path v := by
  rw [IsLeafOf, exists_getElem?_cons
    (P := fun j (e : ValidationError) => ∃ rest, path = (i + j) :: rest ∧
      e.at? rest = some (.field v))]
  simp only [IsLeafOf, Nat.add_zero, Nat.add_assoc, Nat.add_comm 1]

theorem at?_multiple_eq_field_iff {es : List ValidationError} {path : List Nat} {v : Violation} :
    (multiple es).at? path = some (.field v) ↔ IsLeafOf es 0 path v := by
  cases path with
  | nil => simp [at?, IsLeafOf]
  | cons i path =>
    simp only [at?, IsLeafOf, Option.bind_eq_some_iff, Nat.zero_add, List.cons.injEq]
    constructor
    · rintro ⟨e, he, hpath⟩
      exact ⟨i, e, he, path, ⟨rfl, rfl⟩, hpath⟩
    · rintro ⟨_, e, he, _, ⟨rfl, rfl⟩, hpath⟩
      exact ⟨e, he, hpath⟩

/-- The leaves with the number of a member before the paths to them. -/
def leavesBelow (i : Nat) (leaves : List (List Nat × Violation)) : List (List Nat × Violation) :=
  leaves.map fun l => (i :: l.1, l.2)

theorem mem_leavesBelow {leaves : List (List Nat × Violation)} {i : Nat}
    {path : List Nat} {v : Violation} :
    (path, v) ∈ leavesBelow i leaves ↔ ∃ rest, path = i :: rest ∧ (rest, v) ∈ leaves := by
  simp only [leavesBelow, List.mem_map, Prod.mk.injEq, Prod.exists]
  constructor
  · rintro ⟨rest, _, hmem, rfl, rfl⟩
    exact ⟨rest, rfl, hmem⟩
  · rintro ⟨rest, rfl, hmem⟩
    exact ⟨rest, v, hmem, rfl, rfl⟩

theorem sorted_leavesBelow {leaves : List (List Nat × Violation)}
    (h : leaves.Pairwise fun a b => a.1 < b.1) (i : Nat) :
    (leavesBelow i leaves).Pairwise fun a b => a.1 < b.1 :=
  List.pairwise_map.mpr (h.imp fun hlt => List.cons_lt_cons_iff.mpr (.inr ⟨rfl, hlt⟩))

theorem values_leavesBelow (i : Nat) (leaves : List (List Nat × Violation)) :
    (leavesBelow i leaves).map Prod.snd = leaves.map Prod.snd := by
  rw [leavesBelow, List.map_map]
  rfl

/-- The leaves of the first member come before those of the others. -/
theorem exists_leaves_of_members {es : List ValidationError}
    (h : ∀ e ∈ es, e.HasLeaves e.violations) (i : Nat) :
    ∃ leaves : List (List Nat × Violation), leaves.Pairwise (fun a b => a.1 < b.1) ∧
      (∀ path v, (path, v) ∈ leaves ↔ IsLeafOf es i path v) ∧
        leaves.map Prod.snd = es.flatMap violations := by
  induction es generalizing i with
  | nil => exact ⟨[], .nil, by simp [IsLeafOf], rfl⟩
  | cons e es ih =>
    obtain ⟨he, hes⟩ := List.forall_mem_cons.mp h
    obtain ⟨first, hsorted, hfirst, hvalues⟩ := he
    obtain ⟨others, hsorted', hothers, hvalues'⟩ := ih hes (i + 1)
    have hbelow := sorted_leavesBelow hsorted i
    refine ⟨leavesBelow i first ++ others, List.pairwise_append.mpr ⟨hbelow, hsorted', ?_⟩, ?_, ?_⟩
    · rintro ⟨path, v⟩ ha ⟨path', v'⟩ hb
      obtain ⟨rest, rfl, -⟩ := mem_leavesBelow.mp ha
      obtain ⟨j, -, -, rest', rfl, -⟩ := (hothers path' v').mp hb
      exact List.cons_lt_cons_iff.mpr (.inl (by omega))
    · intro path v
      simp only [List.mem_append, mem_leavesBelow, hfirst, hothers, isLeafOf_cons]
    · rw [List.map_append, values_leavesBelow, hvalues, hvalues', List.flatMap_cons]

theorem hasLeaves_violations (e : ValidationError) : e.HasLeaves e.violations := by
  induction e using induction with
  | field v =>
    refine ⟨[([], v)], List.pairwise_singleton _ _, fun path w => ?_, rfl⟩
    cases path <;> simp [at?, eq_comm]
  | multiple es ih =>
    obtain ⟨leaves, hsorted, hleaves, hvalues⟩ := exists_leaves_of_members ih 0
    refine ⟨leaves, hsorted, fun path v => ?_, by rw [hvalues, violations_multiple]⟩
    rw [hleaves, at?_multiple_eq_field_iff]

/-- There is one list of the leaves. -/
theorem hasLeaves_iff {e : ValidationError} {vs : List Violation} :
    e.HasLeaves vs ↔ vs = e.violations := by
  refine ⟨?_, fun h => h ▸ e.hasLeaves_violations⟩
  rintro ⟨leaves, hsorted, hleaves, rfl⟩
  obtain ⟨leaves', hsorted', hleaves', hvalues⟩ := e.hasLeaves_violations
  have hsame : leaves = leaves' := by
    refine hsorted.eq_of_mem_iff hsorted' fun l => ?_
    rw [hleaves, hleaves']
  rw [hsame, hvalues]

end Leaves

section Messages

theorem intercalate_flatten (sep : String) {groups : List (List String)}
    (h : ∀ g ∈ groups, g ≠ []) :
    String.intercalate sep (groups.map (String.intercalate sep)) =
      String.intercalate sep groups.flatten := by
  induction groups with
  | nil => rfl
  | cons g groups ih =>
    obtain ⟨hg, hgroups⟩ := List.forall_mem_cons.mp h
    cases groups with
    | nil => simp
    | cons g' groups =>
      have hne : (g' :: groups).flatten ≠ [] := by
        have hg' := hgroups g' List.mem_cons_self
        simp [hg']
      calc
        _ = String.intercalate sep g ++ sep ++ String.intercalate sep
          ((g' :: groups).map (String.intercalate sep)) :=
          String.intercalate_cons_of_ne_nil (List.cons_ne_nil _ _)
        _ = String.intercalate sep g ++ sep ++ String.intercalate sep (g' :: groups).flatten := by
          rw [ih hgroups]
        _ = _ := (String.intercalate_append_of_ne_nil hg hne).symm

theorem Full.violations_ne_nil {e : ValidationError} (h : e.Full) : e.violations ≠ [] := by
  induction e using induction with
  | field v => exact List.cons_ne_nil v []
  | multiple es ih =>
    obtain ⟨hne, hes⟩ := full_multiple_iff.mp h
    obtain ⟨e, he⟩ := List.exists_mem_of_ne_nil es hne
    rw [violations_multiple]
    exact fun hnil => ih e he (hes e he) (List.flatMap_eq_nil_iff.mp hnil e he)

/-- Where no group is empty, the groups leave no trace in the text. -/
theorem Full.message_eq {e : ValidationError} (h : e.Full) :
    e.message = String.intercalate "; " (e.violations.map Violation.message) := by
  induction e using induction with
  | field v => rfl
  | multiple es ih =>
    obtain ⟨-, hes⟩ := full_multiple_iff.mp h
    have hgroups : ∀ g ∈ es.map fun e => e.violations.map Violation.message, g ≠ [] := by
      intro g hg
      obtain ⟨e, he, rfl⟩ := List.mem_map.mp hg
      exact mt List.map_eq_nil_iff.mp (hes e he).violations_ne_nil
    calc
      (multiple es).message = String.intercalate "; " (es.map message) := message_multiple es
      _ = String.intercalate "; " (es.map fun e =>
        String.intercalate "; " (e.violations.map Violation.message)) := by
        rw [List.map_congr_left fun e he => ih e he (hes e he)]
      _ = String.intercalate "; " (es.map fun e => e.violations.map Violation.message).flatten := by
        rw [← intercalate_flatten "; " hgroups, List.map_map]
        rfl
      _ = String.intercalate "; " ((multiple es).violations.map Violation.message) := by
        rw [violations_multiple, List.flatMap_def, List.map_flatten, List.map_map]
        rfl

-- an empty group has a separator all the same
example : (multiple [.field ⟨"spec.zone", "zone is required"⟩, .multiple []]).message =
    "spec.zone: zone is required; " := rfl

/-- What a machine is refused for has no empty group. -/
theorem full_of_ofViolations? {vs : List Violation} {e : ValidationError}
    (h : ofViolations? vs = some e) : e.Full := by
  match vs with
  | [] => exact nomatch h
  | [v] =>
    obtain rfl := Option.some.inj h
    exact full_field v
  | v :: w :: vs =>
    obtain rfl := Option.some.inj h
    exact full_multiple_iff.mpr
      ⟨List.cons_ne_nil _ _, List.forall_mem_map.mpr fun v _ => full_field v⟩

end Messages

end ValidationError

namespace Collaborators

variable {σ τ : Type} {c : Collaborators σ τ} {s : Scope} {e : ValidationError}

/-- A machine that is not valid is told of, in an event and in the status, with the text of its
violations. -/
theorem create_ends_of_invalid (hs : c.service.Answers) (he : s.machine.validationError? = some e)
    (t : Timeline (World σ τ)) :
    Ends never (c.create s) t fun x u =>
      u.world.events = t.world.events ++
        [.about s.machine .warning Event.failedCreateReason (MachineError.invalidSpec e).message] ∧
      x.2.status.failure = (some .invalidConfiguration,
        some (MachineError.invalidSpec e).message) := by
  have hattempt : exec (c.attempt s) t = (.ok (.error (.machine (.invalidSpec e))), t) := by
    unfold attempt
    rw [he]
    rfl
  refine (create_ends_of_attempt hs hattempt).weaken ?_
  rintro x u ⟨r, -, rfl, hevents, -⟩
  refine ⟨?_, Scope.failure_concluded s _ r⟩
  rw [hevents]
  exact List.append_nil _

end Collaborators

/-- The single violations and their order decide what is listed and what is told, whatever groups
they stand in, when no group is empty. -/
theorem ValidationError.grouping_immaterial (e : ValidationError) (he : e.Full) :
    (∀ vs, e.HasLeaves vs ↔ vs = e.violations) ∧
      e.message = String.intercalate "; " (e.violations.map Violation.message) ∧
      ∀ (e' : ValidationError) (vs : List Violation), e'.Full → e.HasLeaves vs → e'.HasLeaves vs →
        e'.violations = e.violations ∧ e'.message = e.message ∧
          ∀ {σ τ : Type} (c : Collaborators σ τ) (s : Scope) (t : Timeline (World σ τ)),
            exec (c.surface s (.invalidSpec e')) t = exec (c.surface s (.invalidSpec e)) t ∧
              (c.service.Answers → s.machine.validationError? = some e →
                Ends never (c.create s) t fun x u =>
                  u.world.events = t.world.events ++
                    [.about s.machine .warning Event.failedCreateReason
                      (MachineError.invalidSpec e').message] ∧
                  x.2.status.failure = (some .invalidConfiguration,
                    some (MachineError.invalidSpec e').message)) := by
  refine ⟨fun vs => hasLeaves_iff, he.message_eq, fun e' vs he' hvs hvs' => ?_⟩
  have hviolations : e'.violations = e.violations :=
    (hasLeaves_iff.mp hvs').symm.trans (hasLeaves_iff.mp hvs)
  have hmessage : e'.message = e.message := by rw [he'.message_eq, he.message_eq, hviolations]
  have herror : MachineError.invalidSpec e' = .invalidSpec e := by
    unfold MachineError.invalidSpec
    rw [hmessage]
  refine ⟨hviolations, hmessage, fun c s t => ?_⟩
  rw [herror]
  exact ⟨rfl, fun hs hrefused => Collaborators.create_ends_of_invalid hs hrefused t⟩

/-- A machine for which nothing but its name is said. -/
def Machine.bare : Machine := { small with spec := default }

namespace ValidationError

/-- What the bare machine is refused for. -/
def listed : ValidationError :=
  .multiple ([.zone, .machineType, .noDisk, .noInterface].map fun r : BrokenRule =>
    .field r.violation)

/-- The same, grouped by what it concerns. -/
def grouped : ValidationError :=
  .multiple [
    .multiple [.field BrokenRule.zone.violation, .field BrokenRule.machineType.violation],
    .multiple [.multiple [.field BrokenRule.noDisk.violation],
      .field BrokenRule.noInterface.violation]]

theorem grouping_immaterial_bare :
    Machine.bare.validationError? = some listed ∧ listed.Full ∧ grouped.Full ∧
      (∃ vs, listed.HasLeaves vs ∧ grouped.HasLeaves vs) ∧ grouped.message = listed.message ∧
      Ends never
        ((Collaborators.inMemory default none).create ⟨.bare, Machine.bare.status, "lab", false⟩)
        (World.start .new .empty) fun x u =>
          u.world.events =
            [.about .bare .warning Event.failedCreateReason
              (MachineError.invalidSpec grouped).message] ∧
          x.2.status.failure = (some .invalidConfiguration,
            some (MachineError.invalidSpec grouped).message) := by
  have hrefused : Machine.bare.validationError? = some listed := rfl
  have hlisted : listed.Full := full_of_ofViolations? hrefused
  have hgrouped : grouped.Full := by simp [grouped, full_multiple_iff, full_field]
  have hsame : grouped.violations = listed.violations := rfl
  have hleaves : grouped.HasLeaves listed.violations := hsame ▸ grouped.hasLeaves_violations
  obtain ⟨-, -, hregrouped⟩ := grouping_immaterial listed hlisted
  obtain ⟨-, hmessage, hshown⟩ := hregrouped grouped _ hgrouped listed.hasLeaves_violations hleaves
  refine ⟨hrefused, hlisted, hgrouped, ⟨_, listed.hasLeaves_violations, hleaves⟩, hmessage, ?_⟩
  exact (hshown _ _ _).2 Mock.service_answers hrefused

end ValidationError

end Provision
