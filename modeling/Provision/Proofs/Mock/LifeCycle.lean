import Provision.Proofs.Mock.Runs

/-!
The life of an operation of the service in memory: it has a name of its own, it is under way for as
many looks as are set, and then it is done for good and has the faults that are set. Whatever else
is done to the service in between, only the looks at the operation count.
-/
namespace Provision

namespace Operation

variable {polls : Nat} {faults : List OperationFault} {o : Operation}

/-- An operation after so many looks at it, of which `polls` find it under way. -/
def after (polls : Nat) (faults : List OperationFault) (o : Operation) (looks : Nat) :
    TrackedOperation :=
  if looks = 0 then ⟨o, polls⟩
  else if looks ≤ polls then ⟨{ o with state := .running }, polls - looks⟩
  else ⟨{ o with state := .done, faults := if faults.isEmpty then none else some faults }, 0⟩

@[simp] theorem after_zero : o.after polls faults 0 = ⟨o, polls⟩ := rfl

theorem after_succ (k : Nat) : o.after polls faults (k + 1) =
    if k < polls then ⟨{ o with state := .running }, polls - (k + 1)⟩
    else ⟨{ o with state := .done, faults := if faults.isEmpty then none else some faults },
      0⟩ := by
  rw [after, if_neg (Nat.succ_ne_zero k)]
  rfl

theorem poll_after (hfaults : o.faults = none) (looks : Nat) :
    (o.after polls faults looks).poll faults = o.after polls faults (looks + 1) := by
  obtain ⟨name, kind, state, target, _⟩ := o
  obtain rfl : _ = none := hfaults
  rw [after_succ]
  unfold TrackedOperation.poll
  cases looks with
  | zero => by_cases hpolls : 0 < polls <;> simp [hpolls]
  | succ k =>
    rw [after_succ]
    by_cases hmore : k + 1 < polls
    · have hk : k < polls := Nat.lt_of_succ_lt hmore
      have hleft : 0 < polls - (k + 1) := Nat.sub_pos_of_lt hmore
      simp [hk, hmore, hleft, Nat.sub_sub]
    · have hleft : ¬0 < polls - (k + 1) := by omega
      by_cases hk : k < polls <;> cases hempty : faults.isEmpty <;> simp [hk, hmore, hleft]

/-- What the `k`-th look at an operation sees. -/
theorem operation_after (hfaults : o.faults = none) (k : Nat) :
    (o.after polls faults (k + 1)).operation.name = o.name ∧
      (o.after polls faults (k + 1)).operation.state = (if k < polls then .running else .done) ∧
      (o.after polls faults (k + 1)).operation.faultList = (if k < polls then [] else faults) := by
  rw [after_succ]
  by_cases hk : k < polls
  · simp [hk, hfaults, faultList]
  · cases faults <;> simp [hk, faultList]

/-- Once an operation is done, further looks find it as it is. -/
theorem after_of_done (hfaults : o.faults = none) {k k' : Nat} (hle : k ≤ k')
    (hdone : (o.after polls faults (k + 1)).operation.state = .done) :
    (o.after polls faults (k' + 1)).operation = (o.after polls faults (k + 1)).operation := by
  have hk : ¬k < polls := fun hless => by simp [(operation_after hfaults k).2.1, hless] at hdone
  have hk' : ¬k' < polls := fun hless => hk (Nat.lt_of_le_of_lt hle hless)
  rw [after_succ, after_succ, if_neg hk, if_neg hk']

end Operation

namespace Mock

variable {polls : Nat} {faults : List OperationFault} {ds : List Deed} {d : Deed}
  {m m' : Mock} {o : Operation}

/-- What holds of a mock to which the deeds were done: it is set up as it was, and has operations
only under ids that were drawn, among them all that were returned or seen. -/
structure Kept (polls : Nat) (faults : List OperationFault) (ds : List Deed) (m : Mock) : Prop where
  pendingPolls : m.pendingPolls = polls
  operationFaults : m.operationFaults = faults
  nextId : m.nextId.toNat = idsDrawn ds
  named : ∀ name, m.operations.find? name ≠ none →
    ∃ kind id, kind.length = 6 ∧ id ≤ idsDrawn ds ∧ name = nameWithId kind id
  known : ∀ name, name ∈ (started ds).map (·.name) ∨ (∃ o, o ∈ sightings name ds) →
    m.operations.find? name ≠ none

theorem kept_prepared (zones : List (String × String)) :
    Kept polls faults [] (prepared polls faults zones) where
  pendingPolls := rfl
  operationFaults := rfl
  nextId := rfl
  named _ h := absurd rfl h
  known _ h := by simp [started, sightings] at h

theorem Kept.nextId_of_does (h : Kept polls faults ds m) (hdoes : Does m d m')
    (hids : idsDrawn (ds ++ [d]) < UInt64.size) : m'.nextId.toNat = idsDrawn (ds ++ [d]) := by
  rw [idsDrawn_append] at hids ⊢
  have hd : idsDrawn [d] = d.ids := by simp [idsDrawn]
  simp only [UInt64.size] at hids
  rw [hdoes.effect.nextId, UInt64.toNat_add, UInt64.toNat_ofNat', h.nextId, hd]
  omega

/-- An operation that is started has a name that no operation had before. -/
theorem Kept.starts (h : Kept polls faults ds m) (hdoes : Does m d m')
    (hids : idsDrawn (ds ++ [d]) < UInt64.size) (ho : d.started? = some o) :
    m.operations.find? o.name = none ∧ m'.operations.find? o.name = some ⟨o, polls⟩ ∧
      o.faults = none := by
  have hnext := h.nextId_of_does hdoes hids
  obtain ⟨hkind, hstarted, -, hname, hpos, hfaults, hops⟩ | ⟨hstarted, -⟩ | ⟨hstarted, -⟩ :=
    hdoes.effect.touches
  · obtain rfl := Option.some.inj (ho.symm.trans hstarted)
    refine ⟨Classical.byContradiction fun hfind => ?_, ?_, hfaults⟩
    · obtain ⟨kind, id, hkind', hid, hname'⟩ := h.named _ hfind
      have heq := nameWithId_inj (hkind'.trans hkind.symm) (hname'.symm.trans hname)
      rw [hnext, idsDrawn_append] at heq
      simp only [idsDrawn] at heq hid
      omega
    · rw [hops, Table.find?_insert_self, h.pendingPolls]
  · cases hstarted.symm.trans ho
  · cases hstarted.symm.trans ho

theorem Kept.does (h : Kept polls faults ds m) (hdoes : Does m d m')
    (hids : idsDrawn (ds ++ [d]) < UInt64.size) :
    Kept polls faults (ds ++ [d]) m' := by
  have hnext := h.nextId_of_does hdoes hids
  have hmore : idsDrawn ds ≤ idsDrawn (ds ++ [d]) := by
    rw [idsDrawn_append]
    exact Nat.le_add_right _ _
  have hnamed : ∀ name, m.operations.find? name ≠ none →
      ∃ kind id, kind.length = 6 ∧ id ≤ idsDrawn (ds ++ [d]) ∧ name = nameWithId kind id := by
    intro name hfind
    obtain ⟨kind, id, hkind, hid, hname⟩ := h.named name hfind
    exact ⟨kind, id, hkind, Nat.le_trans hid hmore, hname⟩
  refine ⟨hdoes.effect.pendingPolls.trans h.pendingPolls,
    hdoes.effect.operationFaults.trans h.operationFaults, hnext,
    fun name hfind => ?_, fun name hknown => ?_⟩
  · obtain ⟨hkind, -, -, hname, -, -, hops⟩ | ⟨-, -, hfound, -, hops⟩ | ⟨-, -, -, hops⟩ :=
      hdoes.effect.touches
    · rw [hops, Table.find?_insert] at hfind
      split at hfind
      next heq => exact ⟨_, _, hkind, Nat.le_of_eq hnext, heq.trans hname⟩
      · exact hnamed name hfind
    · rw [hops, Table.find?_insert] at hfind
      split at hfind
      next heq => exact hnamed name (by simp [heq, hfound])
      · exact hnamed name hfind
    · exact hnamed name (hops ▸ hfind)
  · simp only [started_append, sightings_append, List.map_append, List.mem_append,
      exists_or] at hknown
    obtain (hbefore | hnow) | hbefore | ⟨x, hnow⟩ := hknown
    · exact hdoes.effect.touches.find?_ne_none (h.known name (.inl hbefore))
    · exact hdoes.effect.touches.known (.inl (by simpa [started] using hnow))
    · exact hdoes.effect.touches.find?_ne_none (h.known name (.inr hbefore))
    · exact hdoes.effect.touches.known (.inr fun hnone => by simp [sightings, hnone] at hnow)

theorem Kept.run {ds' : List Deed} (h : Kept polls faults ds m) (hrun : Run m ds' m')
    (hids : idsDrawn (ds ++ ds') < UInt64.size) : Kept polls faults (ds ++ ds') m' := by
  induction hrun generalizing ds with
  | nil => rwa [List.append_nil]
  | @cons _ _ _ d ds' first _ ih =>
    have hall : ds ++ d :: ds' = ds ++ [d] ++ ds' := by simp
    rw [hall] at hids ⊢
    refine ih (h.does first ?_) hids
    rw [idsDrawn_append] at hids
    omega

/-- Each look at an operation finds it one look further, and nothing else does. -/
theorem Kept.looks {ds' : List Deed} (h : Kept polls faults ds m) (hrun : Run m ds' m')
    (hids : idsDrawn (ds ++ ds') < UInt64.size) (hfaults : o.faults = none) {n : Nat}
    (hfind : m.operations.find? o.name = some (o.after polls faults n)) :
    m'.operations.find? o.name = some (o.after polls faults (n + (sightings o.name ds').length)) ∧
      ∀ (k : Nat) x, (sightings o.name ds')[k]? = some x →
        x = (o.after polls faults (n + k + 1)).operation := by
  induction hrun generalizing ds n with
  | nil => exact ⟨hfind, fun k x hx => by simp [sightings] at hx⟩
  | @cons m m₁ _ d ds' first _ ih =>
    have hall : ds ++ d :: ds' = ds ++ [d] ++ ds' := by simp
    rw [hall] at hids
    have hids' : idsDrawn (ds ++ [d]) < UInt64.size := by
      rw [idsDrawn_append] at hids
      omega
    have hkept := h.does first hids'
    -- Looks at other operations, and all else, leave this one where it was.
    have hother (hseen : d.seen? o.name = none)
        (hkeeps : m₁.operations.find? o.name = m.operations.find? o.name) := by
      have hrest := ih hkept hids (hkeeps.trans hfind)
      rwa [← show sightings o.name (d :: ds') = sightings o.name ds' from
        List.filterMap_cons_none hseen] at hrest
    obtain ⟨-, hstarted, hseen, -, -, -, hops⟩ | @⟨name, x, -, hseen, hx, -, hops⟩ |
      ⟨-, hseen, -, hops⟩ :=
      first.effect.touches
    · refine hother (hseen _) ?_
      have hnew := (h.starts first hids' hstarted).1
      rw [hops, Table.find?_insert_of_ne _ _ fun heq => ?_]
      rw [← heq, hfind] at hnew
      cases hnew
    · by_cases heq : o.name = name
      · subst heq
        obtain rfl := Option.some.inj (hfind.symm.trans hx)
        rw [h.operationFaults, Operation.poll_after hfaults] at hops hseen
        have hsightings :
            sightings o.name (d :: ds') = (o.after polls faults (n + 1)).operation ::
              sightings o.name ds' :=
          List.filterMap_cons_some (by rw [hseen, if_pos rfl])
        obtain ⟨hlast, hlooks⟩ := ih hkept hids (hops ▸ Table.find?_insert_self ..)
        rw [hsightings]
        refine ⟨hlast.trans (by rw [List.length_cons, ← Nat.add_assoc, Nat.add_right_comm]),
          fun k x hx => ?_⟩
        cases k with
        | zero => exact (Option.some.inj hx).symm
        | succ k =>
          rw [hlooks k x hx, ← Nat.add_assoc, Nat.add_right_comm n k 1]
      · exact hother (by rw [hseen, if_neg heq]) (by rw [hops, Table.find?_insert_of_ne _ _ heq])
    · exact hother (hseen _) (by rw [hops])

/-- An operation of a tracked name can be looked at, unless looks are set to fail. -/
theorem exists_look {name : String} (hfind : m.operations.find? name ≠ none)
    (hfailures : m.failures.find? .getOperation = none) (project zone : String) :
    ∃ x m', service.Step (.getOperation project zone name) m (.ok x) m' := by
  obtain ⟨x, hx⟩ := Option.ne_none_iff_exists'.mp hfind
  exact ⟨_, _, step_iff.mpr (reply_getOperation hfailures hx).symm⟩

/-- Whatever is done to the service in memory, an operation that an insertion or a removal returns
has a name that none had before. The looks at it that succeed after that, and there are none before,
find it running and without a fault as often as is set, and from then on done, with the faults that
are set. A look can only fail where it is set to. -/
theorem operations_run_course (zones : List (String × String))
    (run : Run (prepared polls faults zones) ds m) (hids : idsDrawn ds < UInt64.size) :
    ∀ before d after o, ds = before ++ d :: after → d.started? = some o →
      (∀ o' ∈ started before, o'.name ≠ o.name) ∧ sightings o.name before = [] ∧
      (∀ (k : Nat) x, (sightings o.name after)[k]? = some x →
        x.name = o.name ∧ x.state = (if k < polls then .running else .done) ∧
          x.faultList = if k < polls then [] else faults) ∧
      (∀ (k k' : Nat) x x', k ≤ k' → (sightings o.name after)[k]? = some x →
        (sightings o.name after)[k']? = some x' →
        x.state = .done → x' = x) ∧
      (m.failures.find? .getOperation = none →
        ∀ project zone, ∃ x m', service.Step (.getOperation project zone o.name) m (.ok x) m') := by
  rintro before d after o rfl hstarted
  obtain ⟨m₁, hbefore, hrest⟩ := run.of_append
  cases hrest with
  | @cons _ m₂ _ _ _ first rest =>
    have hall : before ++ d :: after = before ++ [d] ++ after := by simp
    rw [hall] at hids
    have hids₂ : idsDrawn (before ++ [d]) < UInt64.size := by
      rw [idsDrawn_append] at hids
      omega
    have hids₁ : idsDrawn before < UInt64.size := by
      rw [idsDrawn_append] at hids₂
      omega
    have hkept : Kept polls faults before m₁ :=
      (kept_prepared zones).run hbefore (by simpa using hids₁)
    obtain ⟨hnew, hfound, hfaults⟩ := hkept.starts first hids₂ hstarted
    obtain ⟨hlast, hlooks⟩ := (hkept.does first hids₂).looks rest hids hfaults (n := 0) hfound
    have hunknown := fun hknown => hkept.known o.name hknown hnew
    refine ⟨fun o' ho' heq => hunknown (.inl (heq ▸ List.mem_map_of_mem ho')),
      List.eq_nil_iff_forall_not_mem.mpr fun x hx => hunknown (.inr ⟨x, hx⟩),
      fun k x hx => ?_, ?_, ?_⟩
    · rw [hlooks k x hx, Nat.zero_add]
      exact Operation.operation_after hfaults k
    · intro k k' x x' hle hx hx' hdone
      rw [hlooks k x hx, Nat.zero_add] at hdone ⊢
      rw [hlooks k' x' hx', Nat.zero_add]
      exact Operation.after_of_done hfaults hle hdone
    · exact fun hfailures => exists_look (by simp [hlast]) hfailures

/-- A worker is removed and another made. A look fails as it is set to; one look finds the operation
running, the next done. -/
def course : List Deed :=
  let worker (name : String) : Instance :=
    ⟨name, none, "", false, false, ∅, none, [], [], [], none, "", ""⟩
  let insertion : Operation := ⟨"operation-insert-3", "insert", .pending, "worker-1", none⟩
  let look : Call := .getOperation "lab" "us-east1-c" insertion.name
  [.seeding "lab" "us-east1-c" (worker "worker-0"),
    .exchange ⟨.deleteInstance "lab" "us-east1-c" "worker-0",
      .ok ⟨"operation-delete-1", "delete", .pending, "worker-0", none⟩⟩,
    .exchange ⟨.insertInstance "lab" "us-east1-c" (worker "worker-1"), .ok insertion⟩,
    .failing .getOperation (.ofStatus 503 "later"),
    .exchange ⟨look, .error (.ofStatus 503 "later")⟩,
    .clearing .getOperation, .exchange ⟨look, .ok { insertion with state := .running }⟩,
    .exchange
      ⟨look, .ok { insertion with state := .done, faults := some [⟨"QUOTA", "", "exceeded"⟩] }⟩]

theorem operations_run_course_once_running :
    ∃ m, Run (prepared 1 [⟨"QUOTA", "", "exceeded"⟩] []) course m ∧
    idsDrawn course < UInt64.size ∧
      (∀ o' ∈ started (course.take 2), o'.name ≠ "operation-insert-3") ∧
    ∃ x x', sightings "operation-insert-3" (course.drop 3) = [x, x'] ∧ x.state = .running ∧
      x.faultList = [] ∧
      x'.state = .done ∧ x'.faultList = [⟨"QUOTA", "", "exceeded"⟩] := by
  obtain ⟨m, hrun⟩ : ∃ m, Run (prepared 1 [⟨"QUOTA", "", "exceeded"⟩] []) course m :=
    ⟨_, .cons (.seeding _ _ _ _) <| .cons (.of_reply rfl) <| .cons (.of_reply rfl) <|
      .cons (.failing _ _ _) <|
      .cons (.of_reply rfl) <| .cons (.clearing _ _) <| .cons (.of_reply rfl) <|
        .cons (.of_reply rfl) <| .nil _⟩
  have hids : idsDrawn course < UInt64.size := by decide +kernel
  obtain ⟨hnew, -, hlooks, -⟩ :=
    operations_run_course [] hrun hids (course.take 2) _ (course.drop 3) _ rfl rfl
  obtain ⟨-, hfirst⟩ := hlooks 0 _ rfl
  obtain ⟨-, hsecond⟩ := hlooks 1 _ rfl
  exact ⟨m, hrun, hids, hnew, _, _, rfl, hfirst.1, hfirst.2, hsecond.1, hsecond.2⟩

end Mock

end Provision
