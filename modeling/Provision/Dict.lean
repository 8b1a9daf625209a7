/-!
Finite maps from strings, kept as a list in ascending order of the keys: two of them are equal
exactly when they hold the same entries.
-/
namespace Provision

structure Dict (ν : Type) where
  entries : List (String × ν)
  sorted : entries.Pairwise fun a b => a.1 < b.1

namespace Dict

variable {ν : Type}

@[ext] theorem ext {d e : Dict ν} (h : d.entries = e.entries) : d = e := by
  cases d; cases e; simp_all

instance [DecidableEq ν] : DecidableEq (Dict ν) := fun d e =>
  decidable_of_iff (d.entries = e.entries) ⟨ext, fun h => h ▸ rfl⟩

def empty : Dict ν := ⟨[], .nil⟩

instance : EmptyCollection (Dict ν) := ⟨empty⟩
instance : Inhabited (Dict ν) := ⟨empty⟩

def isEmpty (d : Dict ν) : Bool := d.entries.isEmpty

def find? (d : Dict ν) (k : String) : Option ν := d.entries.lookup k

/-- Puts `v` at `k` in a sorted list, in place of what is there. -/
def insertEntry (k : String) (v : ν) : List (String × ν) → List (String × ν)
  | [] => [(k, v)]
  | (l, w) :: r =>
    if k < l then (k, v) :: (l, w) :: r
    else if k = l then (k, v) :: r
    else (l, w) :: insertEntry k v r

theorem mem_insertEntry {k : String} {v : ν} {es : List (String × ν)} {e : String × ν}
    (h : e ∈ insertEntry k v es) : e = (k, v) ∨ e ∈ es := by
  induction es with
  | nil => simpa [insertEntry] using h
  | cons x r ih =>
    obtain ⟨l, w⟩ := x
    simp only [insertEntry] at h
    split at h
    · simpa using h
    · split at h
      · rcases List.mem_cons.1 h with h | h <;> simp [h]
      · rcases List.mem_cons.1 h with h | h
        · simp [h]
        · rcases ih h with h | h <;> simp [h]

theorem sorted_insertEntry {k : String} {v : ν} {es : List (String × ν)}
    (h : es.Pairwise fun a b => a.1 < b.1) :
    (insertEntry k v es).Pairwise fun a b => a.1 < b.1 := by
  induction es with
  | nil => simp [insertEntry]
  | cons x r ih =>
    obtain ⟨l, w⟩ := x
    obtain ⟨hx, hr⟩ := List.pairwise_cons.1 h
    simp only [insertEntry]
    split
    next hk =>
      refine List.pairwise_cons.2 ⟨fun e he => ?_, h⟩
      rcases List.mem_cons.1 he with rfl | he
      · exact hk
      · exact String.lt_trans hk (hx e he)
    next hk =>
      split
      next he => subst he; exact List.pairwise_cons.2 ⟨hx, hr⟩
      next he =>
        refine List.pairwise_cons.2 ⟨fun e hm => ?_, ih hr⟩
        rcases mem_insertEntry hm with rfl | hm
        · have hle : l ≤ k := String.not_lt.1 hk
          rcases Classical.em (l < k) with hlt | hlt
          · exact hlt
          · exact absurd (String.le_antisymm (String.not_lt.1 hlt) hle) he
        · exact hx e hm

def insert (d : Dict ν) (k : String) (v : ν) : Dict ν :=
  ⟨insertEntry k v d.entries, sorted_insertEntry d.sorted⟩

/-- Of two entries with one key the later counts. -/
def ofList (es : List (String × ν)) : Dict ν := es.foldl (fun d e => d.insert e.1 e.2) ∅

@[simp] theorem entries_empty : (∅ : Dict ν).entries = [] := rfl

@[simp] theorem entries_insert (d : Dict ν) (k : String) (v : ν) :
    (d.insert k v).entries = insertEntry k v d.entries := rfl

/-- A key above all others goes to the end. -/
theorem insertEntry_of_forall_lt {k : String} {v : ν} {es : List (String × ν)}
    (h : ∀ e ∈ es, e.1 < k) : insertEntry k v es = es ++ [(k, v)] := by
  induction es with
  | nil => rfl
  | cons x r ih =>
    obtain ⟨l, w⟩ := x
    have hl : l < k := h (l, w) (by simp)
    have h1 : ¬ k < l := fun hk => String.lt_irrefl _ (String.lt_trans hl hk)
    have h2 : k ≠ l := fun hk => String.lt_irrefl _ (hk ▸ hl)
    rw [insertEntry, if_neg h1, if_neg h2, ih fun e he => h e (by simp [he])]
    rfl

end Dict
end Provision
