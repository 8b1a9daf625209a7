import Provision.Proofs.Json.Printing

/-!
Codecs that lose nothing: what they write stands for what it was written from. A record is faithful
when its fields are, each has a name of its own, and only the value that stands for absence is left
out.
-/
namespace Provision.Json

variable {α : Type}

/-- What is written can stand in a text, and stands for what it was written from. -/
structure Codec.Faithful (c : Codec α) : Prop where
  textual : ∀ a, (c.encode a).Textual
  decode_encode : ∀ a, c.decode (c.encode a) = .ok a

namespace Codec

theorem textual_text (s : String) : (text s).Textual := .string nofun

theorem faithful_string : string.Faithful := ⟨textual_text, fun _ => rfl⟩

theorem faithful_bool : bool.Faithful := ⟨.bool, fun _ => rfl⟩

theorem integer?_ofInt {n : Int} (h : -0x8000000000000000 ≤ n) (hn : n < 0x8000000000000000) :
    integer? (.number (.ofInt n)) = some n := by
  by_cases hneg : n < 0
  · simp only [integer?, Numeral.number?_ofInt_of_neg hneg h]
  · simp only [integer?, Numeral.number?_ofInt_of_nonneg (by omega) hn]
    exact congrArg some (by omega)

theorem faithful_int64 : int64.Faithful where
  textual _ := .number _
  decode_encode i := by
    have hlt : i.toInt < 0x8000000000000000 := i.toInt_lt
    simp only [int64, integer?_ofInt i.le_toInt hlt, if_pos hlt, Int64.ofInt_toInt]

theorem faithful_numberText (room : Nat) : (numberText room).Faithful where
  textual
    | none => .null
    | some _ => textual_text _
  decode_encode
    | none => rfl
    | some n => by
      simp only [numberText, text, Text.readUnsigned_toString n.toNat_lt, UInt64.ofNat_toNat]

theorem Faithful.option {c : Codec α} (h : c.Faithful) (hnull : ∀ a, c.encode a ≠ .null) :
    c.option.Faithful where
  textual
    | none => .null
    | some a => h.textual a
  decode_encode
    | none => rfl
    | some a =>
      (option_decode_of_ne c (hnull a)).trans (congrArg (Except.map some) (h.decode_encode a))

theorem Faithful.decodeItems_map {c : Codec α} (h : c.Faithful) (as : List α) :
    decodeItems c (as.map c.encode) = .ok as := by
  induction as with
  | nil => rfl
  | cons a as ih =>
    rw [List.map_cons, decodeItems, h.decode_encode]
    exact congrArg (Except.map (a :: ·)) ih

theorem Faithful.list {c : Codec α} (h : c.Faithful) : c.list.Faithful where
  textual as := .array fun v hv => by
    obtain ⟨a, -, rfl⟩ := List.mem_map.mp hv
    exact h.textual a
  decode_encode := h.decodeItems_map

/-- The entries that are left go to the end, in the order they are in. -/
theorem Faithful.decodeEntries_map {c : Codec α} (h : c.Faithful)
    {es : List (String × α)} {d d' : Dict α} (hd : d'.entries = d.entries ++ es) :
    decodeEntries c d (es.map fun e => (.ok e.1, c.encode e.2)) = .ok d' := by
  induction es generalizing d with
  | nil =>
    rw [List.append_nil] at hd
    exact congrArg Except.ok (Dict.ext hd.symm)
  | cons e es ih =>
    have habove : ∀ x ∈ d.entries, x.1 < e.1 := by
      have hsorted := d'.sorted
      rw [hd, List.pairwise_append] at hsorted
      exact fun x hx => hsorted.2.2 x hx e List.mem_cons_self
    have hnext : d'.entries = (d.insert e.1 e.2).entries ++ es := by
      rw [Dict.entries_insert, Dict.insertEntry_of_forall_lt habove, List.append_assoc, hd]
      rfl
    simp only [List.map_cons, decodeEntries, readStr, h.decode_encode]
    exact ih hnext

theorem Faithful.dict {c : Codec α} (h : c.Faithful) : c.dict.Faithful where
  textual d := by
    refine .object (fun m hm => ?_) fun m hm => ?_ <;> obtain ⟨e, -, rfl⟩ := List.mem_map.mp hm
    · exact nofun
    · exact h.textual e.2
  decode_encode d := h.decodeEntries_map (d := ∅) rfl

theorem faithful_enumeration {name : α → String} {all : List α}
    (h : ∀ a, byName name all (name a) = .ok a) :
    (enumeration name all).Faithful := ⟨fun _ => textual_text _, h⟩

end Codec

/-- The field loses nothing, also where it is left out. -/
structure Field.Faithful (f : Field α) : Prop where
  codec : f.codec.Faithful
  absent_of_omits : ∀ a, f.omits a = true → f.absent = some a

namespace Field

variable {name : String} {c : Codec α}

theorem faithful_required (h : c.Faithful) : (required name c).Faithful := ⟨h, nofun⟩

theorem faithful_withDefault (h : c.Faithful) {a : α} : (withDefault name c a).Faithful :=
  ⟨h, nofun⟩

theorem faithful_omitting [DecidableEq α] (h : c.Faithful) {a : α} : (omitting name c a).Faithful :=
  ⟨h, fun _ hb => congrArg some (of_decide_eq_true hb).symm⟩

/-- An optional value that is left out when there is none. -/
theorem faithful_of_isNone {c : Codec (Option α)} (h : c.Faithful) :
    (Field.mk name c (some none) Option.isNone).Faithful :=
  ⟨h, fun _ hn => congrArg some (Option.isNone_iff_eq_none.mp hn).symm⟩

theorem faithful_optional (h : c.Faithful) (hnull : ∀ a, c.encode a ≠ .null) :
    (optional name c).Faithful :=
  faithful_of_isNone (h.option hnull)

end Field

namespace Fields

/-- No field loses anything. -/
inductive Faithful : {ts : List Type} → Fields ts → Prop
  | nil : Faithful .nil
  | cons {α : Type} {ts : List Type} {f : Field α} {fs : Fields ts} (hf : f.Faithful)
      (hfs : Faithful fs) :
      Faithful (.cons f fs)

variable {ts : List Type}

/-- Members of other names leave the first slot as it is. -/
theorem putAll_cons_of_ne {f : Field α} {fs : Fields ts} {ms : List (Str × Json)}
    (h : ∀ m ∈ ms, ∃ k, m.1 = .ok k ∧ f.name ≠ k) (slot : Option α) (slots : Slots ts) :
    (cons f fs).putAll (slot, slots) ms = (fs.putAll slots ms).map (slot, ·) := by
  induction ms generalizing slots with
  | nil => rfl
  | cons m ms ih =>
    obtain ⟨k, v⟩ := m
    obtain ⟨j, rfl, hne⟩ := h _ List.mem_cons_self
    simp only [putAll, readStr, put, if_neg hne]
    cases put j v fs slots with
    | error e => rfl
    | ok slots => exact ih (fun m hm => h m (List.mem_cons_of_mem _ hm)) slots

theorem encode_cons (f : Field α) (fs : Fields ts) (a : α) (as : Tuple ts) :
    (cons f fs).encode (a, as) =
      if f.omits a then fs.encode as else (.ok f.name, f.codec.encode a) :: fs.encode as :=
  rfl

theorem name_of_mem_encode {fs : Fields ts} {as : Tuple ts} {m : Str × Json}
    (h : m ∈ fs.encode as) :
    ∃ k ∈ fs.names, m.1 = .ok k := by
  induction fs with
  | nil => cases h
  | cons f fs ih =>
    obtain ⟨a, as⟩ := as
    have hrest : m ∈ fs.encode as → ∃ k ∈ (cons f fs).names, m.1 = .ok k := fun hm => by
      obtain ⟨k, hk, he⟩ := ih hm
      exact ⟨k, List.mem_cons_of_mem _ hk, he⟩
    rw [encode_cons] at h
    split at h
    · exact hrest h
    · obtain rfl | hm := List.mem_cons.mp h
      · exact ⟨f.name, List.mem_cons_self, rfl⟩
      · exact hrest hm

theorem Faithful.textual_encode {fs : Fields ts} (h : fs.Faithful) (as : Tuple ts) :
    ∀ m ∈ fs.encode as, m.2.Textual := by
  induction h with
  | nil => exact nofun
  | cons hf _ ih =>
    obtain ⟨a, as⟩ := as
    rw [encode_cons]
    split
    · exact ih as
    · exact List.forall_mem_cons.mpr ⟨hf.codec.textual a, ih as⟩

/-- The members that are written fill the slots of their fields, and the values of the others are
those that stand for absence. -/
theorem Faithful.putAll_encode {fs : Fields ts} (h : fs.Faithful) (hnames : fs.names.Nodup)
    (as : Tuple ts) :
    ∃ slots, fs.putAll (noSlots ts) (fs.encode as) = .ok slots ∧ fs.complete slots = .ok as := by
  induction h with
  | nil => exact ⟨(), rfl, rfl⟩
  | @cons α ts f fs hf _ ih =>
    obtain ⟨a, as⟩ := as
    obtain ⟨hname, hnames⟩ := List.nodup_cons.mp hnames
    obtain ⟨slots, hput, hcomplete⟩ := ih hnames as
    have hothers : ∀ m ∈ fs.encode as, ∃ k, m.1 = .ok k ∧ f.name ≠ k := fun m hm => by
      obtain ⟨k, hk, he⟩ := name_of_mem_encode hm
      exact ⟨k, he, fun hn => hname (hn ▸ hk)⟩
    have hrest (slot : Option α) :
        (Fields.cons f fs).putAll (slot, noSlots ts) (fs.encode as) = .ok (slot, slots) := by
      rw [putAll_cons_of_ne hothers, hput]
      rfl
    rw [encode_cons]
    by_cases homits : f.omits a
    · rw [if_pos homits]
      refine ⟨(none, slots), hrest none, ?_⟩
      simp only [complete, Option.none_or, hf.absent_of_omits a homits, hcomplete]
      rfl
    · rw [if_neg homits]
      refine ⟨(some a, slots), ?_, ?_⟩
      · simp only [putAll, readStr, noSlots, put, if_true, hf.codec.decode_encode]
        exact hrest (some a)
      · simp only [complete, Option.some_or, hcomplete]
        rfl

end Fields

namespace Codec

theorem faithful_record {ts : List Type} {β : Type} {name : String}
    {fs : Fields ts} (h : fs.Faithful) (hnames : fs.names.Nodup) {parts : β → Tuple ts}
    {whole : Tuple ts → β} (hwhole : ∀ b, whole (parts b) = b) :
    (record name fs parts whole).Faithful where
  textual b := by
    refine .object (fun m hm => ?_) (h.textual_encode (parts b))
    obtain ⟨k, -, hk⟩ := Fields.name_of_mem_encode hm
    exact fun he => nomatch hk.symm.trans he
  decode_encode b := by
    obtain ⟨slots, hput, hcomplete⟩ := h.putAll_encode hnames (parts b)
    simp only [record, hput, hcomplete]
    exact congrArg Except.ok (hwhole b)

/-- The text of a value stands for it, on one line and over several, so that no two values have one
text. -/
structure Inverts (c : Codec α) : Prop where
  decodeText_encodeText : ∀ a, c.decodeText (c.encodeText a) = .ok a
  decodeText_encodeLines : ∀ a, c.decodeText (c.encodeLines a) = .ok a
  encodeText_injective : ∀ a b, c.encodeText a = c.encodeText b → a = b

theorem Faithful.inverts {c : Codec α} (h : c.Faithful) : c.Inverts := by
  have hdecode (l : Layout) (a : α) : c.decodeText (String.ofList ((c.encode a).write l)) = .ok a :=
    (decodeText_eq_ok_iff (standsFor_write (h.textual a) l)).mpr (h.decode_encode a)
  refine ⟨hdecode .compact, hdecode (.indented 0), fun a b he => ?_⟩
  have ha := hdecode .compact a
  rw [show String.ofList ((c.encode a).write .compact) =
    String.ofList ((c.encode b).write .compact) from he,
    hdecode .compact b] at ha
  exact (Except.ok.inj ha).symm

end Codec
end Provision.Json
