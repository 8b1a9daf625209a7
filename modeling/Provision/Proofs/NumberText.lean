import Provision.Proofs.Formats
import Provision.Proofs.Json.Retention
import Provision.Proofs.Json.Substitution
import Provision.Proofs.Unsigned

/-!
Numbers of 64 bits that are written as strings: the identity of an instance and the size of a disk.
Which values denote a number is said apart from reading; just these are taken for the fields,
whatever else the records hold, and what is written denotes the number that it was written from.
-/
namespace Provision

namespace Json

/-- The number that a value denotes, if any: null denotes none, and a number is denoted by an
integer without a sign, a fraction or an exponent, and by the string of a numeral. -/
inductive DenotesNumber : Json → Option UInt64 → Prop
  | null : DenotesNumber .null none
  | integer (n : UInt64) : DenotesNumber (.number ⟨false, n.toNat, [], none⟩) (some n)
  | string {s : String} {n : UInt64} (h : Text.WritesUnsigned s.toList n.toNat) :
      DenotesNumber (text s) (some n)

namespace Codec

variable {α : Type} {room : Nat} {v : Json} {o : Option UInt64}

theorem number?_eq_natural_iff {n : Numeral} {k : Nat} :
    n.number? = some (.natural k) ↔ n = .ofNat k ∧ k < UInt64.size := by
  constructor
  · intro h
    have hsign : Numeral.ofInt k = .ofNat k := by
      rw [Numeral.ofInt, decide_eq_false (by omega)]
      rfl
    obtain rfl : n = .ofNat k := (eq_ofInt_of_number?.1 k h).trans hsign
    refine ⟨rfl, Decidable.byContradiction fun hk => ?_⟩
    have hreal : (Numeral.ofNat k).number? = (Numeral.ofNat k).real? := if_neg hk
    exact (real?_ne_integer _).1 k (hreal.symm.trans h)
  · rintro ⟨rfl, hk⟩
    exact Numeral.number?_ofNat hk

theorem numberText_decode_number_iff {n : Numeral} :
    (numberText room).decode (.number n) = .ok o ↔ ∃ k, n.number? = some (.natural k) ∧
      o = some (.ofNat k) := by
  simp only [numberText, wholeCause?]
  cases n.number? with
  | none => simp
  | some m => cases m <;> simp [eq_comm]

theorem numberText_decode_text_iff {s : String} :
    (numberText room).decode (text s) = .ok o ↔
      ∃ k, Text.readUnsigned UInt64.size s = .ok k ∧ o = some (.ofNat k) := by
  simp only [numberText, text]
  cases Text.readUnsigned UInt64.size s with
  | error e => simp
  | ok k => simp [eq_comm]

/-- Just the values that denote a number, or none, are read. -/
theorem numberText_decode_eq_ok_iff : (numberText room).decode v = .ok o ↔ DenotesNumber v o := by
  constructor
  · intro h
    cases v with
    | null =>
      cases h
      exact .null
    | bool b => cases h
    | number n =>
      obtain ⟨k, hk, rfl⟩ := numberText_decode_number_iff.mp h
      obtain ⟨rfl, hlt⟩ := number?_eq_natural_iff.mp hk
      have hvalue : (UInt64.ofNat k).toNat = k := UInt64.toNat_ofNat_of_lt' hlt
      have hdenotes := DenotesNumber.integer (.ofNat k)
      rwa [hvalue] at hdenotes
    | string s =>
      cases s with
      | ok s =>
        obtain ⟨k, hk, rfl⟩ := numberText_decode_text_iff.mp h
        obtain ⟨hwrites, hlt⟩ := (Text.readUnsigned_eq_ok_iff (by decide)).mp hk
        exact .string (by rwa [UInt64.toNat_ofNat_of_lt' hlt])
      | error e => cases h
    | array vs =>
      simp only [numberText] at h
      split at h <;> cases h
    | object ms =>
      simp only [numberText] at h
      split at h <;> cases h
  · intro h
    cases h with
    | null => rfl
    | integer n =>
      have hk := number?_eq_natural_iff.mpr ⟨rfl, n.toNat_lt⟩
      exact numberText_decode_number_iff.mpr ⟨n.toNat, hk, by rw [UInt64.ofNat_toNat]⟩
    | @string s n h =>
      have hk := (Text.readUnsigned_eq_ok_iff (by decide)).mpr ⟨h, n.toNat_lt⟩
      exact numberText_decode_text_iff.mpr ⟨n.toNat, hk, by rw [UInt64.ofNat_toNat]⟩

/-- The number for the field, which is the `i`-th, is read from what there is for it and from
nothing else: just what denotes a number is taken, and all other fields are as they are with
null. -/
structure ReadsNumber (c : Codec α) (k : String) (i : Nat) (number : α → Option UInt64)
    (without : α → α) : Prop where
  decode_iff : ∀ ⦃v x y⦄, Swapped k i .null v x y → ∀ a,
    c.decode y = .ok a ↔ DenotesNumber v (number a) ∧ c.decode x = .ok (without a)
  decodeText_iff : ∀ ⦃v x y s t⦄, Swapped k i .null v x y → StandsFor s x → StandsFor t y → ∀ a,
    c.decodeText t = .ok a ↔ DenotesNumber v (number a) ∧ c.decodeText s = .ok (without a)

/-- A number in the field is written as the string of its decimal digits, without a sign or a zero
in front, and read back. -/
structure WritesNumber (c : Codec α) (k : String) (number : α → Option UInt64) : Prop where
  encode : ∀ a n, number a = some n → ∃ ms ds, c.encode a = .object ms ∧
    (∀ w, (.ok k, w) ∈ ms ↔ w = text (String.ofList ds)) ∧
    Digits ds ∧ (ds.head? = some '0' → ds = ['0']) ∧ ofDigits ds = n.toNat
  decode_encode : ∀ a, c.decode (c.encode a) = .ok a
  decodeText_encodeText : ∀ a, c.decodeText (c.encodeText a) = .ok a

section Records

variable {ts : List Type} {β : Type} {record : String} {fs : Fields ts} {parts : β → Tuple ts}
  {whole : Tuple ts → β}
  {k : String} {i : Nat} {number : β → Option UInt64} {without : β → β}

/-- A field for a number, left out when there is none. -/
def numberField (k : String) (room : Nat) : Field (Option UInt64) :=
  ⟨k, numberText room, some none, Option.isNone⟩

theorem readsNumber_record (hwhole : ∀ b, whole (parts b) = b)
    (hparts : ∀ as, parts (whole as) = as)
    (hfield : ∀ b, (numberField k room).Swaps none (number b) fs i (parts (without b)) (parts b)) :
    (Codec.record record fs parts whole).ReadsNumber k i number without := by
  have hdecode : ∀ ⦃v x y⦄, Swapped k i .null v x y → ∀ b,
      (Codec.record record fs parts whole).decode y = .ok b ↔
        DenotesNumber v (number b) ∧
          (Codec.record record fs parts whole).decode x = .ok (without b) := fun v x y h b =>
    (record_decode_swapped_iff hwhole hparts (hfield b) rfl h).trans
      (and_congr_left' numberText_decode_eq_ok_iff)
  refine ⟨hdecode, fun v x y s t h hs ht b => ?_⟩
  rw [decodeText_eq_ok_iff hs, decodeText_eq_ok_iff ht]
  exact hdecode h b

theorem writesNumber_record (hfaithful : (Codec.record record fs parts whole).Faithful)
    (hnames : fs.names.Nodup)
    (hfield : ∀ b, ∃ as, (numberField k room).Swaps none (number b) fs i as (parts b)) :
    (Codec.record record fs parts whole).WritesNumber k number where
  encode b n hn := by
    refine ⟨fs.encode (parts b), Nat.toDigits 10 n.toNat, rfl, fun w => ?_, digits_toDigits _,
      toDigits_of_head?,
      ofDigits_toDigits _⟩
    obtain ⟨as, hswaps⟩ := hfield b
    rw [hn] at hswaps
    exact Fields.mem_encode_swaps_iff hswaps hnames rfl
  decode_encode := hfaithful.decode_encode
  decodeText_encodeText := hfaithful.inverts.decodeText_encodeText

end Records

end Codec
end Json

open Json Json.Codec

theorem Instance.swaps_id (a : Instance) : (numberField "id" 127).Swaps none a.id fields 1
    (a.name, none, a.machineType, a.canIpForward, a.deletionProtection, a.labels, a.tags,
      a.disks, a.interfaces,
      a.serviceAccounts, a.metadata, a.status, a.zone, ())
    (a.name, a.id, a.machineType, a.canIpForward, a.deletionProtection, a.labels, a.tags,
      a.disks, a.interfaces,
      a.serviceAccounts, a.metadata, a.status, a.zone, ()) :=
  .tail (by decide) _ (.head _)

theorem DiskSource.swaps_sizeGb (a : DiskSource) :
    (numberField "diskSizeGb" 124).Swaps none a.sizeGb fields 0
    (none, a.diskType, a.labels, a.image, ()) (a.sizeGb, a.diskType, a.labels, a.image, ()) :=
  .head _

/-- The identity of an instance and the size of a disk are read from null, from integers without a
sign and from strings of numerals, below 2⁶⁴ all of them, and from nothing else. Each is written as
the string of its digits. -/
theorem number_fields_exact :
    (Instance.codec.ReadsNumber "id" 1 Instance.id fun a => { a with id := none }) ∧
    (DiskSource.codec.ReadsNumber "diskSizeGb" 0 DiskSource.sizeGb fun a =>
      { a with sizeGb := none }) ∧
    Instance.codec.WritesNumber "id" Instance.id ∧
    DiskSource.codec.WritesNumber "diskSizeGb" DiskSource.sizeGb :=
  ⟨readsNumber_record (fun _ => rfl) (fun _ => rfl) Instance.swaps_id,
    readsNumber_record (fun _ => rfl) (fun _ => rfl) DiskSource.swaps_sizeGb,
    writesNumber_record Instance.faithful_codec (by decide) fun a => ⟨_, a.swaps_id⟩,
    writesNumber_record DiskSource.faithful_codec (by decide) fun a => ⟨_, a.swaps_sizeGb⟩⟩

/-- The largest number, with a zero in front, and the next one. -/
example :
    let read (s : String) :=
      (DiskSource.codec.decode (.object [(.ok "diskSizeGb", text s)])).map DiskSource.sizeGb
    read "+018446744073709551615" = .ok (some 0xFFFFFFFFFFFFFFFF) ∧
      read "18446744073709551616" = .error (.digits .tooLarge) :=
  ⟨rfl, rfl⟩

end Provision
