/-!
Finite and infinite tables: what is found at a key is all that there is to a table, so two tables
are equal when they agree at every key.
-/
namespace Provision

structure Table (κ ν : Type) where
  find? : κ → Option ν

namespace Table

variable {κ ν : Type}

@[ext] theorem ext {t u : Table κ ν} (h : ∀ k, t.find? k = u.find? k) : t = u := by
  cases t; cases u; simp only [mk.injEq]; exact funext h

def empty : Table κ ν := ⟨fun _ => none⟩

instance : EmptyCollection (Table κ ν) := ⟨empty⟩
instance : Inhabited (Table κ ν) := ⟨empty⟩

variable [DecidableEq κ]

def insert (t : Table κ ν) (k : κ) (v : ν) : Table κ ν :=
  ⟨fun l => if l = k then some v else t.find? l⟩

def erase (t : Table κ ν) (k : κ) : Table κ ν := ⟨fun l => if l = k then none else t.find? l⟩

omit [DecidableEq κ] in
@[simp] theorem find?_empty (k : κ) : (∅ : Table κ ν).find? k = none := rfl

theorem find?_insert (t : Table κ ν) (k l : κ) (v : ν) :
    (t.insert k v).find? l = if l = k then some v else t.find? l := rfl

theorem find?_erase (t : Table κ ν) (k l : κ) :
    (t.erase k).find? l = if l = k then none else t.find? l := rfl

@[simp] theorem find?_insert_self (t : Table κ ν) (k : κ) (v : ν) :
    (t.insert k v).find? k = some v := by simp [find?_insert]

@[simp] theorem find?_erase_self (t : Table κ ν) (k : κ) : (t.erase k).find? k = none := by
  simp [find?_erase]

theorem find?_insert_of_ne (t : Table κ ν) {k l : κ} (v : ν) (h : l ≠ k) :
    (t.insert k v).find? l = t.find? l := by simp [find?_insert, h]

theorem find?_erase_of_ne (t : Table κ ν) {k l : κ} (h : l ≠ k) :
    (t.erase k).find? l = t.find? l := by simp [find?_erase, h]

end Table
end Provision
