import Provision.Dict

/-!
What is found in a finite map is all that there is to it.
-/
namespace Provision.Dict

variable {ν : Type} {k l : String} {v : ν}

theorem lookup_cons (e : String × ν) (es : List (String × ν)) :
    (e :: es).lookup k = if k = e.1 then some e.2 else es.lookup k := by
  obtain ⟨l, w⟩ := e
  rw [List.lookup_cons]
  by_cases h : k = l
  · simp [h]
  · simp [beq_false_of_ne h, h]

theorem lookup_insertEntry (es : List (String × ν)) :
    (insertEntry k v es).lookup l = if l = k then some v else es.lookup l := by
  induction es with
  | nil => rw [insertEntry, lookup_cons]
  | cons e es ih =>
    rw [insertEntry]
    split
    · rw [lookup_cons]
    split
    next heq =>
      rw [lookup_cons, lookup_cons, heq]
      by_cases h : l = e.1 <;> simp [h]
    next hne =>
      rw [lookup_cons, lookup_cons, ih]
      by_cases h : l = e.1
      · rw [if_pos h, if_pos h, if_neg fun he => hne (he.symm.trans h)]
      · rw [if_neg h, if_neg h]

theorem find?_insert (d : Dict ν) : (d.insert k v).find? l = if l = k then some v else d.find? l :=
  lookup_insertEntry d.entries

@[simp] theorem find?_empty : (∅ : Dict ν).find? l = none := rfl

/-- Below its first key, nothing is in a sorted list. -/
theorem lookup_of_forall_lt {es : List (String × ν)} (h : ∀ e ∈ es, k < e.1) :
    es.lookup k = none := by
  refine List.lookup_eq_none_iff.mpr fun e he => ?_
  simpa using fun heq : k = e.1 => String.lt_irrefl _ (heq ▸ h e he)

/-- Of two sorted lists in which the same is found, neither has a key below the first of the
other. -/
theorem not_lt_of_lookup {es es' : List (String × ν)} {e e' : String × ν}
    (hes : (e :: es).Pairwise fun a b => a.1 < b.1)
    (h : ∀ k, (e :: es).lookup k = (e' :: es').lookup k) : ¬e'.1 < e.1 := by
  intro hlt
  have hnone : (e :: es).lookup e'.1 = none := by
    refine lookup_of_forall_lt fun x hx => ?_
    obtain rfl | hx := List.mem_cons.mp hx
    · exact hlt
    · exact String.lt_trans hlt ((List.pairwise_cons.mp hes).1 x hx)
  rw [h, lookup_cons, if_pos rfl] at hnone
  cases hnone

theorem eq_of_lookup {es es' : List (String × ν)} (hes : es.Pairwise fun a b => a.1 < b.1)
    (hes' : es'.Pairwise fun a b => a.1 < b.1) (h : ∀ k, es.lookup k = es'.lookup k) :
    es = es' := by
  induction es generalizing es' with
  | nil =>
    cases es' with
    | nil => rfl
    | cons e' es' =>
      have hhead := h e'.1
      rw [lookup_cons, if_pos rfl] at hhead
      cases hhead
  | cons e es ih =>
    cases es' with
    | nil =>
      have hhead := h e.1
      rw [lookup_cons, if_pos rfl] at hhead
      cases hhead
    | cons e' es' =>
      have hkeys : e.1 = e'.1 := String.le_antisymm (String.not_lt.1 (not_lt_of_lookup hes h))
        (String.not_lt.1 (not_lt_of_lookup hes' fun k => (h k).symm))
      obtain ⟨hlt, hes⟩ := List.pairwise_cons.mp hes
      obtain ⟨hlt', hes'⟩ := List.pairwise_cons.mp hes'
      have hvalues : e.2 = e'.2 := by
        have hhead := h e.1
        rw [lookup_cons, lookup_cons, if_pos rfl, if_pos hkeys] at hhead
        exact Option.some.inj hhead
      have hrest : ∀ k, es.lookup k = es'.lookup k := by
        intro k
        have hk := h k
        rw [lookup_cons, lookup_cons, ← hkeys] at hk
        split at hk
        next heq => rw [heq, lookup_of_forall_lt hlt, lookup_of_forall_lt (hkeys ▸ hlt')]
        · exact hk
      rw [Prod.ext hkeys hvalues, ih hes hes' hrest]

theorem ext_find? {d e : Dict ν} (h : ∀ k, d.find? k = e.find? k) : d = e :=
  ext (eq_of_lookup d.sorted e.sorted h)

end Provision.Dict
