import Provision.Proofs.Json.Recognition

/-!
What does not matter in a text that is decoded: in which order the members of a record stand, and
what other members stand among them. So a value may come in a later form of its record.
-/
namespace Provision.Json

theorem map_eq_ok_iff {ε α β : Type} {x : Except ε α} {f : α → β} {b : β} :
    x.map f = .ok b ↔ ∃ a, x = .ok a ∧ f a = b := by
  cases x with
  | error e => exact ⟨nofun, nofun⟩
  | ok a => simp only [Except.map, Except.ok.injEq, exists_eq_left']

/-- The field that takes the members of its name. -/
inductive Field.Serves {γ : Type} (f : Field γ) : {ts : List Type} → Fields ts → Prop
  | here {ts : List Type} {fs : Fields ts} : Serves f (.cons f fs)
  | there {α : Type} {ts : List Type} {g : Field α} {fs : Fields ts} (hne : g.name ≠ f.name)
      (h : Serves f fs) :
      Serves f (.cons g fs)

/-- The field whose value is the `i`-th where a record is a list. -/
inductive Field.StandsAt {γ : Type} (f : Field γ) : {ts : List Type} → Fields ts → Nat → Prop
  | head {ts : List Type} {fs : Fields ts} : StandsAt f (.cons f fs) 0
  | tail {α : Type} {ts : List Type} {g : Field α} {fs : Fields ts} {i : Nat}
      (h : StandsAt f fs i) :
      StandsAt f (.cons g fs) (i + 1)

namespace Fields

variable {ts : List Type} {α γ : Type} {k : String} {v v' : Json}

/-- A member either fills the empty slot of the first field, or is none of it. -/
theorem put_cons_eq_ok_iff {f : Field α} {fs : Fields ts} {slot : Option α} {slots : Slots ts}
    {out : Slots (α :: ts)} :
    put k v (.cons f fs) (slot, slots) = .ok out ↔
      (f.name = k ∧ slot = none ∧ ∃ a, f.codec.decode v = .ok a ∧ out = (some a, slots)) ∨
      (f.name ≠ k ∧ ∃ rest, put k v fs slots = .ok rest ∧ out = (slot, rest)) := by
  by_cases hname : f.name = k
  · cases slot with
    | none =>
      simp only [put, hname, if_true, map_eq_ok_iff, true_and, ne_eq, not_true, false_and, or_false]
      exact exists_congr fun a => and_congr_right fun _ => eq_comm
    | some b => simp [put, hname]
  · simp only [put, hname, if_false, map_eq_ok_iff, false_and, false_or, ne_eq,
      not_false_eq_true, true_and]
    exact exists_congr fun a => and_congr_right fun _ => eq_comm

/-- A member that no field is named for is passed over. -/
theorem put_of_not_mem {fs : Fields ts} (hk : k ∉ fs.names) (slots : Slots ts) :
    put k v fs slots = .ok slots := by
  induction fs with
  | nil => rfl
  | cons f fs ih =>
    obtain ⟨slot, slots⟩ := slots
    obtain ⟨hname, hk⟩ := not_or.mp (mt List.mem_cons.mpr hk)
    exact put_cons_eq_ok_iff.mpr (.inr ⟨fun he => hname he.symm, slots, ih hk slots, rfl⟩)

/-- Two members that are taken in one after the other may trade places: they fill different
slots. -/
theorem put_exchange {fs : Fields ts} {k' : String} {a b d : Slots ts} (h : put k v fs a = .ok b)
    (h' : put k' v' fs b = .ok d) : ∃ c, put k' v' fs a = .ok c ∧ put k v fs c = .ok d := by
  induction fs with
  | nil => exact ⟨(), rfl, rfl⟩
  | cons f fs ih =>
    obtain ⟨slot, slots⟩ := a
    obtain ⟨hname, rfl, x, hx, rfl⟩ | ⟨hname, rest, hrest, rfl⟩ := put_cons_eq_ok_iff.mp h
    · obtain ⟨-, hfull, -⟩ | ⟨hname', rest, hrest, rfl⟩ := put_cons_eq_ok_iff.mp h'
      · cases hfull
      · exact ⟨(none, rest), put_cons_eq_ok_iff.mpr (.inr ⟨hname', rest, hrest, rfl⟩),
          put_cons_eq_ok_iff.mpr (.inl ⟨hname, rfl, x, hx, rfl⟩)⟩
    · obtain ⟨hname', rfl, x, hx, rfl⟩ | ⟨hname', rest', hrest', rfl⟩ := put_cons_eq_ok_iff.mp h'
      · exact ⟨(some x, slots), put_cons_eq_ok_iff.mpr (.inl ⟨hname', rfl, x, hx, rfl⟩),
          put_cons_eq_ok_iff.mpr (.inr ⟨hname, rest, hrest, rfl⟩)⟩
      · obtain ⟨c, hc, hd⟩ := ih hrest hrest'
        exact ⟨(slot, c), put_cons_eq_ok_iff.mpr (.inr ⟨hname', c, hc, rfl⟩),
          put_cons_eq_ok_iff.mpr (.inr ⟨hname, rest', hd, rfl⟩)⟩

/-- A value that decodes alike is taken in alike. -/
theorem put_of_serves {f : Field γ} {fs : Fields ts} (hf : f.Serves fs)
    (hv : ∀ a, f.codec.decode v = .ok a → f.codec.decode v' = .ok a) {slots out : Slots ts}
    (h : put f.name v fs slots = .ok out) : put f.name v' fs slots = .ok out := by
  induction hf with
  | here =>
    obtain ⟨slot, slots⟩ := slots
    obtain ⟨hname, rfl, a, ha, rfl⟩ | ⟨hname, -⟩ := put_cons_eq_ok_iff.mp h
    · exact put_cons_eq_ok_iff.mpr (.inl ⟨hname, rfl, a, hv a ha, rfl⟩)
    · exact absurd rfl hname
  | there hne _ ih =>
    obtain ⟨slot, slots⟩ := slots
    obtain ⟨hname, -⟩ | ⟨-, rest, hrest, rfl⟩ := put_cons_eq_ok_iff.mp h
    · exact absurd hname hne
    · exact put_cons_eq_ok_iff.mpr (.inr ⟨hne, rest, ih hrest, rfl⟩)

variable {fs : Fields ts} {slots out : Slots ts}

theorem putAll_cons_eq_ok_iff {m : Str × Json} {ms : List (Str × Json)} :
    fs.putAll slots (m :: ms) = .ok out ↔
      ∃ k rest, m.1 = .ok k ∧ put k m.2 fs slots = .ok rest ∧ fs.putAll rest ms = .ok out := by
  obtain ⟨name, v⟩ := m
  cases name with
  | error e => exact ⟨nofun, fun ⟨_, _, hk, _⟩ => nomatch hk⟩
  | ok k =>
    cases hput : put k v fs slots with
    | error e =>
      simp only [putAll, readStr, hput]
      refine ⟨nofun, fun ⟨_, _, hk, hrest, _⟩ => ?_⟩
      cases hk
      cases hput.symm.trans hrest
    | ok rest =>
      simp only [putAll, readStr, hput]
      refine ⟨fun h => ⟨k, rest, rfl, hput, h⟩, fun ⟨_, _, hk, hrest, h⟩ => ?_⟩
      cases hk
      cases hput.symm.trans hrest
      exact h

theorem putAll_append_eq_ok_iff {ms ns : List (Str × Json)} :
    fs.putAll slots (ms ++ ns) = .ok out ↔
      ∃ rest, fs.putAll slots ms = .ok rest ∧ fs.putAll rest ns = .ok out := by
  induction ms generalizing slots with
  | nil => simp [putAll]
  | cons m ms ih =>
    simp only [List.cons_append, putAll_cons_eq_ok_iff, ih]
    constructor
    · rintro ⟨k, s, hk, hs, rest, hrest, hout⟩
      exact ⟨rest, ⟨k, s, hk, hs, hrest⟩, hout⟩
    · rintro ⟨rest, ⟨k, s, hk, hs, hrest⟩, hout⟩
      exact ⟨k, s, hk, hs, rest, hrest, hout⟩

/-- The order of the members does not count. -/
theorem putAll_of_perm {ms ns : List (Str × Json)} (h : ms.Perm ns)
    (hput : fs.putAll slots ms = .ok out) :
    fs.putAll slots ns = .ok out := by
  induction h generalizing slots with
  | nil => exact hput
  | cons m _ ih =>
    obtain ⟨k, rest, hk, hrest, hout⟩ := putAll_cons_eq_ok_iff.mp hput
    exact putAll_cons_eq_ok_iff.mpr ⟨k, rest, hk, hrest, ih hout⟩
  | swap m n ms =>
    obtain ⟨k, b, hk, hb, hput⟩ := putAll_cons_eq_ok_iff.mp hput
    obtain ⟨k', d, hk', hd, hout⟩ := putAll_cons_eq_ok_iff.mp hput
    obtain ⟨c, hc, hcd⟩ := put_exchange hb hd
    exact putAll_cons_eq_ok_iff.mpr
      ⟨k', c, hk', hc, putAll_cons_eq_ok_iff.mpr ⟨k, d, hk, hcd, hout⟩⟩
  | trans _ _ ih ih' => exact ih' (ih hput)

theorem ofItems_cons_eq_ok_iff {f : Field α} {record : String} {size i : Nat} {vs : List Json}
    {as : Tuple (α :: ts)} :
    (cons f fs).ofItems record size i (v :: vs) = .ok as ↔
      ∃ a rest, f.codec.decode v = .ok a ∧ fs.ofItems record size (i + 1) vs = .ok rest ∧
        as = (a, rest) := by
  simp only [ofItems]
  cases f.codec.decode v with
  | error e => exact ⟨nofun, fun ⟨_, _, ha, _⟩ => nomatch ha⟩
  | ok a =>
    simp only [map_eq_ok_iff, Except.ok.injEq, exists_and_left, exists_eq_left']
    exact exists_congr fun rest => and_congr_right fun _ => eq_comm

/-- A value that decodes alike, where a record is a list. -/
theorem ofItems_of_standsAt {f : Field γ} {i : Nat} (hf : f.StandsAt fs i)
    (hv : ∀ a, f.codec.decode v = .ok a → f.codec.decode v' = .ok a)
    {record : String} {size j : Nat} {vs ws : List Json} (hi : vs.length = i) {as : Tuple ts}
    (h : fs.ofItems record size j (vs ++ v :: ws) = .ok as) :
    fs.ofItems record size j (vs ++ v' :: ws) = .ok as := by
  induction hf generalizing vs j with
  | head =>
    obtain rfl := List.eq_nil_of_length_eq_zero hi
    obtain ⟨a, rest, ha, hrest, rfl⟩ := ofItems_cons_eq_ok_iff.mp h
    exact ofItems_cons_eq_ok_iff.mpr ⟨a, rest, hv a ha, hrest, rfl⟩
  | tail _ ih =>
    cases vs with
    | nil => cases hi
    | cons w vs =>
      obtain ⟨a, rest, ha, hrest, rfl⟩ := ofItems_cons_eq_ok_iff.mp h
      exact ofItems_cons_eq_ok_iff.mpr ⟨a, rest, ha, ih (Nat.succ.inj hi) hrest, rfl⟩

end Fields

namespace Codec

variable {α : Type} {c : Codec α} {v v' : Json}

theorem decodeItems_cons_eq_ok_iff {vs : List Json} {as : List α} :
    decodeItems c (v :: vs) = .ok as ↔ ∃ a rest, c.decode v = .ok a ∧ decodeItems c vs = .ok rest ∧
      as = a :: rest := by
  simp only [decodeItems]
  cases c.decode v with
  | error e => exact ⟨nofun, fun ⟨_, _, ha, _⟩ => nomatch ha⟩
  | ok a =>
    simp only [map_eq_ok_iff, Except.ok.injEq, exists_and_left, exists_eq_left']
    exact exists_congr fun rest => and_congr_right fun _ => eq_comm

/-- An item that decodes alike. -/
theorem decodeItems_of_item (hv : ∀ a, c.decode v = .ok a → c.decode v' = .ok a)
    {vs ws : List Json} {as : List α} (h : decodeItems c (vs ++ v :: ws) = .ok as) :
    decodeItems c (vs ++ v' :: ws) = .ok as := by
  induction vs generalizing as with
  | nil =>
    obtain ⟨a, rest, ha, hrest, rfl⟩ := decodeItems_cons_eq_ok_iff.mp h
    exact decodeItems_cons_eq_ok_iff.mpr ⟨a, rest, hv a ha, hrest, rfl⟩
  | cons w vs ih =>
    obtain ⟨a, rest, ha, hrest, rfl⟩ := decodeItems_cons_eq_ok_iff.mp h
    exact decodeItems_cons_eq_ok_iff.mpr ⟨a, rest, ha, ih hrest, rfl⟩

/-- What a record is decoded from, as an object. -/
theorem record_decode_object_eq_ok_iff {ts : List Type} {β : Type} {name : String} {fs : Fields ts}
    {parts : β → Tuple ts} {whole : Tuple ts → β} {ms : List (Str × Json)} {b : β} :
    (record name fs parts whole).decode (.object ms) = .ok b ↔
      ∃ slots as, fs.putAll (Fields.noSlots ts) ms = .ok slots ∧ fs.complete slots = .ok as ∧
        whole as = b := by
  simp only [record]
  cases fs.putAll (Fields.noSlots ts) ms with
  | error e => exact ⟨nofun, fun ⟨_, _, hslots, _⟩ => nomatch hslots⟩
  | ok slots => simp only [map_eq_ok_iff, Except.ok.injEq, exists_and_left, exists_eq_left']

/-- One change to a value that a codec does not mind: in an object that stands for a record the
members may change places, and members may come in that no field is named for; and so it is with the
records inside. -/
inductive Edit : {α : Type} → Codec α → Json → Json → Prop
  | reorder {ts : List Type} {β : Type} {name : String} {fs : Fields ts} {parts : β → Tuple ts}
      {whole : Tuple ts → β} {ms ns : List (Str × Json)} (h : ms.Perm ns) :
      Edit (record name fs parts whole) (.object ms) (.object ns)
  | insert {ts : List Type} {β : Type} {name : String} {fs : Fields ts} {parts : β → Tuple ts}
      {whole : Tuple ts → β} {k : String} (hk : k ∉ fs.names) (v : Json)
      (ms ns : List (Str × Json)) :
      Edit (record name fs parts whole) (.object (ms ++ ns)) (.object (ms ++ (.ok k, v) :: ns))
  | member {ts : List Type} {β γ : Type} {name : String} {fs : Fields ts} {parts : β → Tuple ts}
      {whole : Tuple ts → β} {f : Field γ} (hf : f.Serves fs) {v v' : Json} (h : Edit f.codec v v')
      (ms ns : List (Str × Json)) :
      Edit (record name fs parts whole) (.object (ms ++ (.ok f.name, v) :: ns))
        (.object (ms ++ (.ok f.name, v') :: ns))
  | part {ts : List Type} {β γ : Type} {name : String} {fs : Fields ts} {parts : β → Tuple ts}
      {whole : Tuple ts → β} {f : Field γ} {i : Nat} (hf : f.StandsAt fs i) {v v' : Json}
      (h : Edit f.codec v v') {vs : List Json} (hi : vs.length = i) (ws : List Json) :
      Edit (record name fs parts whole) (.array (vs ++ v :: ws)) (.array (vs ++ v' :: ws))
  | option {α : Type} {c : Codec α} {v v' : Json} (h : Edit c v v') : Edit c.option v v'
  | item {α : Type} {c : Codec α} {v v' : Json} (h : Edit c v v') (vs ws : List Json) :
      Edit c.list (.array (vs ++ v :: ws)) (.array (vs ++ v' :: ws))

theorem Edit.ne_null (h : Edit c v v') : v ≠ .null ∧ v' ≠ .null := by
  induction h with
  | option _ ih => exact ih
  | _ => exact ⟨nofun, nofun⟩

/-- What an edit leads to is decoded as what it started from. -/
theorem Edit.decode_eq_ok (h : Edit c v v') {a : α} (ha : c.decode v = .ok a) :
    c.decode v' = .ok a := by
  induction h with
  | reorder hperm =>
    obtain ⟨slots, as, hput, hrest⟩ := record_decode_object_eq_ok_iff.mp ha
    exact record_decode_object_eq_ok_iff.mpr ⟨slots, as, Fields.putAll_of_perm hperm hput, hrest⟩
  | insert hk v ms ns =>
    obtain ⟨slots, as, hput, hrest⟩ := record_decode_object_eq_ok_iff.mp ha
    obtain ⟨s, hms, hns⟩ := Fields.putAll_append_eq_ok_iff.mp hput
    refine record_decode_object_eq_ok_iff.mpr
      ⟨slots, as, Fields.putAll_append_eq_ok_iff.mpr ⟨s, hms, ?_⟩, hrest⟩
    exact Fields.putAll_cons_eq_ok_iff.mpr ⟨_, s, rfl, Fields.put_of_not_mem hk s, hns⟩
  | member hf _ ms ns ih =>
    obtain ⟨slots, as, hput, hrest⟩ := record_decode_object_eq_ok_iff.mp ha
    obtain ⟨s, hms, hns⟩ := Fields.putAll_append_eq_ok_iff.mp hput
    obtain ⟨k, t, hk, ht, hns⟩ := Fields.putAll_cons_eq_ok_iff.mp hns
    refine record_decode_object_eq_ok_iff.mpr
      ⟨slots, as, Fields.putAll_append_eq_ok_iff.mpr ⟨s, hms, ?_⟩, hrest⟩
    cases hk
    exact Fields.putAll_cons_eq_ok_iff.mpr
      ⟨_, t, rfl, Fields.put_of_serves hf (fun _ => ih) ht, hns⟩
  | part hf _ hi ws ih =>
    obtain ⟨as, has, hwhole⟩ := map_eq_ok_iff.mp ha
    exact map_eq_ok_iff.mpr ⟨as, Fields.ofItems_of_standsAt hf (fun _ => ih) hi has, hwhole⟩
  | option hedit ih =>
    rw [option_decode_of_ne _ hedit.ne_null.1] at ha
    rw [option_decode_of_ne _ hedit.ne_null.2]
    obtain ⟨b, hb, hsome⟩ := map_eq_ok_iff.mp ha
    exact map_eq_ok_iff.mpr ⟨b, ih hb, hsome⟩
  | item _ vs ws ih => exact decodeItems_of_item (fun _ => ih) ha

/-- Any number of edits. -/
inductive Edits (c : Codec α) : Json → Json → Prop
  | refl (v : Json) : Edits c v v
  | tail {v w u : Json} (h : Edits c v w) (hedit : c.Edit w u) : Edits c v u

theorem Edits.decode_eq_ok (h : c.Edits v v') {a : α} (ha : c.decode v = .ok a) :
    c.decode v' = .ok a := by
  induction h with
  | refl => exact ha
  | tail _ hedit ih => exact hedit.decode_eq_ok ih

theorem exists_standsFor_of_decodeText {s : String} {a : α} (h : c.decodeText s = .ok a) :
    ∃ v, StandsFor s v := by
  cases hread : parse s with
  | some v => exact ⟨v, parse_eq_some_iff.mp hread⟩
  | none =>
    simp only [decodeText, decodeSymbols, show readSymbols (Symbol.ofText s) = none from hread] at h
    cases h

/-- Only JSON is decoded, and however it is edited, it is decoded as before. -/
structure Tolerates (c : Codec α) : Prop where
  exists_standsFor : ∀ s a, c.decodeText s = .ok a → ∃ v, StandsFor s v
  decodeText_of_edits : ∀ ⦃s s' v v' a⦄, StandsFor s v → StandsFor s' v' → c.Edits v v' →
    c.decodeText s = .ok a →
    c.decodeText s' = .ok a

theorem tolerates (c : Codec α) : c.Tolerates where
  exists_standsFor _ _ := exists_standsFor_of_decodeText
  decodeText_of_edits _ _ _ _ _ hs hs' hedits ha :=
    (decodeText_eq_ok_iff hs').mpr (hedits.decode_eq_ok ((decodeText_eq_ok_iff hs).mp ha))

end Codec
end Provision.Json
