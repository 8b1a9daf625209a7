import Provision.Proofs.Json.Faithful
import Provision.Proofs.Json.Tolerance

/-!
One value for a field in place of another. What is decoded then differs in that field alone, so that
a field may be looked at apart from the record that it is in.
-/
namespace Provision.Json

/-- Two tuples that have `a` and `b` for the field, which is the `i`-th, and the same for all
others. -/
inductive Field.Swaps {γ : Type} (f : Field γ) (a b : γ) :
    {ts : List Type} → Fields ts → Nat → Tuple ts → Tuple ts → Prop
  | head {ts : List Type} {fs : Fields ts} (as : Tuple ts) :
      Swaps f a b (.cons f fs) 0 (a, as) (b, as)
  | tail {α : Type} {ts : List Type} {g : Field α} {fs : Fields ts} (hne : g.name ≠ f.name)
      (x : α) {i : Nat} {as bs : Tuple ts} (h : Swaps f a b fs i as bs) :
      Swaps f a b (.cons g fs) (i + 1) (x, as) (x, bs)

/-- Two values that are the same, but that the field of the name `k`, or the `i`-th where they are
lists, is given by `v` in the one and by `w` in the other. -/
inductive Swapped (k : String) (i : Nat) (v w : Json) : Json → Json → Prop
  | member (ms ns : List (Str × Json)) :
      Swapped k i v w (.object (ms ++ (.ok k, v) :: ns)) (.object (ms ++ (.ok k, w) :: ns))
  | item {vs : List Json} (hi : vs.length = i) (ws : List Json) :
      Swapped k i v w (.array (vs ++ v :: ws)) (.array (vs ++ w :: ws))

namespace Fields

variable {ts : List Type} {α γ : Type} {fs : Fields ts} {f : Field γ} {a b : γ}
  {i : Nat} {as bs : Tuple ts}
  {v w : Json}

theorem complete_cons_eq_ok_iff {g : Field α} {slot : Option α} {slots : Slots ts} {x : α} :
    (cons g fs).complete (slot, slots) = .ok (x, as) ↔ slot.or g.absent = some x ∧
      fs.complete slots = .ok as := by
  simp only [complete]
  cases slot.or g.absent with
  | none =>
    constructor
    · intro h
      cases h
    · rintro ⟨h, -⟩
      cases h
  | some y =>
    rw [map_eq_ok_iff, Option.some.injEq]
    constructor
    · rintro ⟨rest, hrest, he⟩
      cases he
      exact ⟨rfl, hrest⟩
    · rintro ⟨rfl, hrest⟩
      exact ⟨as, hrest, rfl⟩

/-- The first field takes a member of its name when it has none yet. -/
theorem exists_put_head_iff {slot : Option γ} {slots : Slots ts} :
    (∃ out, put f.name w (cons f fs) (slot, slots) = .ok out ∧
      (cons f fs).complete out = .ok (b, as)) ↔
      slot = none ∧ f.codec.decode w = .ok b ∧ fs.complete slots = .ok as := by
  constructor
  · rintro ⟨out, hput, hcomplete⟩
    obtain ⟨-, hslot, c, hc, rfl⟩ | ⟨hne, -⟩ := put_cons_eq_ok_iff.mp hput
    · obtain ⟨hb, hrest⟩ := complete_cons_eq_ok_iff.mp hcomplete
      cases hb
      exact ⟨hslot, hc, hrest⟩
    · exact absurd rfl hne
  · rintro ⟨rfl, hw, hrest⟩
    exact ⟨_, put_cons_eq_ok_iff.mpr (.inl ⟨rfl, rfl, b, hw, rfl⟩),
      complete_cons_eq_ok_iff.mpr ⟨rfl, hrest⟩⟩

/-- A member of another name is for the other fields. -/
theorem exists_put_tail_iff {g : Field α} (hne : g.name ≠ f.name) {slot : Option α}
    {slots : Slots ts} {x : α} :
    (∃ out, put f.name w (cons g fs) (slot, slots) = .ok out ∧
      (cons g fs).complete out = .ok (x, as)) ↔
      slot.or g.absent = some x ∧ ∃ out, put f.name w fs slots = .ok out ∧
        fs.complete out = .ok as := by
  constructor
  · rintro ⟨out, hput, hcomplete⟩
    obtain ⟨he, -⟩ | ⟨-, rest, hrest, rfl⟩ := put_cons_eq_ok_iff.mp hput
    · exact absurd he hne
    · obtain ⟨hx, has⟩ := complete_cons_eq_ok_iff.mp hcomplete
      exact ⟨hx, rest, hrest, has⟩
  · rintro ⟨hx, out, hput, has⟩
    exact ⟨_, put_cons_eq_ok_iff.mpr (.inr ⟨hne, out, hput, rfl⟩),
      complete_cons_eq_ok_iff.mpr ⟨hx, has⟩⟩

/-- What a member for the field comes to, when another value for it comes to `a`. -/
theorem exists_put_swaps_iff (h : f.Swaps a b fs i as bs) (ha : f.codec.decode v = .ok a)
    {slots : Slots ts} :
    (∃ out, put f.name w fs slots = .ok out ∧ fs.complete out = .ok bs) ↔
      f.codec.decode w = .ok b ∧ ∃ out, put f.name v fs slots = .ok out ∧
        fs.complete out = .ok as := by
  induction h with
  | head as =>
    obtain ⟨slot, slots⟩ := slots
    rw [exists_put_head_iff, exists_put_head_iff, and_iff_right ha]
    exact and_left_comm
  | tail hne x _ ih =>
    obtain ⟨slot, slots⟩ := slots
    rw [exists_put_tail_iff hne, exists_put_tail_iff hne, ih]
    exact and_left_comm

theorem ofItems_cons_pair_iff {g : Field α} {record : String} {size j : Nat}
    {vs : List Json} {x : α} :
    (cons g fs).ofItems record size j (w :: vs) = .ok (x, as) ↔
      g.codec.decode w = .ok x ∧ fs.ofItems record size (j + 1) vs = .ok as := by
  rw [ofItems_cons_eq_ok_iff]
  constructor
  · rintro ⟨y, rest, hy, hrest, he⟩
    cases he
    exact ⟨hy, hrest⟩
  · rintro ⟨hx, has⟩
    exact ⟨x, as, hx, has, rfl⟩

/-- The same, where a record is a list. -/
theorem ofItems_swaps_iff (h : f.Swaps a b fs i as bs) (ha : f.codec.decode v = .ok a)
    {record : String} {size j : Nat} {vs ws : List Json} (hi : vs.length = i) :
    fs.ofItems record size j (vs ++ w :: ws) = .ok bs ↔
      f.codec.decode w = .ok b ∧ fs.ofItems record size j (vs ++ v :: ws) = .ok as := by
  induction h generalizing vs j with
  | head as =>
    obtain rfl := List.eq_nil_of_length_eq_zero hi
    rw [List.nil_append, List.nil_append, ofItems_cons_pair_iff, ofItems_cons_pair_iff,
      and_iff_right ha]
  | tail _ x _ ih =>
    cases vs with
    | nil => cases hi
    | cons y vs =>
      rw [List.cons_append, List.cons_append, ofItems_cons_pair_iff, ofItems_cons_pair_iff,
        ih (Nat.succ.inj hi)]
      exact and_left_comm

/-- A member that is written for the field, where it is not left out. -/
theorem mem_encode_swaps_iff (h : f.Swaps a b fs i as bs) (hnames : fs.names.Nodup)
    (hb : f.omits b = false) :
    (.ok f.name, w) ∈ fs.encode bs ↔ w = f.codec.encode b := by
  induction h with
  | @head _ fs as =>
    obtain ⟨hname, -⟩ := List.nodup_cons.mp hnames
    have hothers : (.ok f.name, w) ∉ fs.encode as := by
      intro hm
      obtain ⟨k, hk, he⟩ := name_of_mem_encode hm
      exact hname (Except.ok.inj he ▸ hk)
    simp [encode_cons, hb, hothers]
  | @tail _ _ g fs hne x _ _ _ _ ih =>
    obtain ⟨-, hnames⟩ := List.nodup_cons.mp hnames
    rw [encode_cons]
    split
    · exact ih hnames
    · simp [ih hnames, Ne.symm hne]

end Fields

namespace Codec

variable {ts : List Type} {β γ : Type} {name : String} {fs : Fields ts} {parts : β → Tuple ts}
  {whole : Tuple ts → β}
  {f : Field γ} {a b : γ} {i : Nat} {p q : β} {v w x y : Json}

/-- What is decoded from an object, with one member taken in after the others. -/
theorem record_decode_member_iff (hwhole : ∀ b, whole (parts b) = b)
    (hparts : ∀ as, parts (whole as) = as) {k : String} {ms ns : List (Str × Json)} :
    (record name fs parts whole).decode (.object (ms ++ (.ok k, v) :: ns)) = .ok p ↔
      ∃ slots, fs.putAll (Fields.noSlots ts) (ms ++ ns) = .ok slots ∧
        ∃ out, Fields.put k v fs slots = .ok out ∧ fs.complete out = .ok (parts p) := by
  have hlast : (ms ++ (.ok k, v) :: ns).Perm (ms ++ ns ++ [(.ok k, v)]) :=
    List.perm_middle.trans (List.perm_append_singleton _ _).symm
  rw [record_decode_object_eq_ok_iff]
  constructor
  · rintro ⟨out, as, hput, hcomplete, rfl⟩
    obtain ⟨slots, hslots, hput⟩ :=
      Fields.putAll_append_eq_ok_iff.mp (Fields.putAll_of_perm hlast hput)
    obtain ⟨_, out', hk, hout, he⟩ := Fields.putAll_cons_eq_ok_iff.mp hput
    cases hk
    cases he
    exact ⟨slots, hslots, out, hout, by rwa [hparts]⟩
  · rintro ⟨slots, hslots, out, hput, hcomplete⟩
    have hone : fs.putAll slots [(.ok k, v)] = .ok out :=
      Fields.putAll_cons_eq_ok_iff.mpr ⟨k, out, rfl, hput, rfl⟩
    have hall := Fields.putAll_append_eq_ok_iff.mpr ⟨slots, hslots, hone⟩
    exact ⟨out, parts p, Fields.putAll_of_perm hlast.symm hall, hcomplete, hwhole p⟩

theorem record_decode_array_iff (hwhole : ∀ b, whole (parts b) = b)
    (hparts : ∀ as, parts (whole as) = as) {vs : List Json} :
    (record name fs parts whole).decode (.array vs) = .ok p ↔
      fs.ofItems name fs.names.length 0 vs = .ok (parts p) := by
  refine map_eq_ok_iff.trans ⟨?_, fun h => ⟨_, h, hwhole p⟩⟩
  rintro ⟨as, has, rfl⟩
  rwa [hparts]

/-- A record is decoded from one of two values that differ in a field exactly when it is decoded,
but for the field, from the other, and the field from what there is for it. -/
theorem record_decode_swapped_iff (hwhole : ∀ b, whole (parts b) = b)
    (hparts : ∀ as, parts (whole as) = as) (hswaps : f.Swaps a b fs i (parts p) (parts q))
    (ha : f.codec.decode v = .ok a) (h : Swapped f.name i v w x y) :
    (record name fs parts whole).decode y = .ok q ↔
      f.codec.decode w = .ok b ∧ (record name fs parts whole).decode x = .ok p := by
  cases h with
  | member ms ns =>
    rw [record_decode_member_iff hwhole hparts,
      record_decode_member_iff hwhole hparts, ← exists_and_left]
    refine exists_congr fun slots => ?_
    rw [Fields.exists_put_swaps_iff hswaps ha]
    exact and_left_comm
  | item hi ws =>
    rw [record_decode_array_iff hwhole hparts, record_decode_array_iff hwhole hparts,
      Fields.ofItems_swaps_iff hswaps ha hi]

end Codec

end Provision.Json
