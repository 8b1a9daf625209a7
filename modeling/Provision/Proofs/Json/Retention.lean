import Provision.Proofs.Json.Faithful
import Provision.Proofs.Json.Tolerance

/-!
What is left of a value that is decoded and written again. A schema says for which places of it
there is a field; what stands at these places stays, and all else may go.
-/
namespace Provision

namespace Dict

variable {ν : Type}

theorem mem_insertEntry_self (k : String) (v : ν) (es : List (String × ν)) :
    (k, v) ∈ insertEntry k v es := by
  induction es with
  | nil => exact List.mem_singleton_self _
  | cons e es ih =>
    unfold insertEntry
    split
    · exact List.mem_cons_self
    · split
      · exact List.mem_cons_self
      · exact List.mem_cons_of_mem _ ih

theorem mem_insertEntry_of_ne {n k : String} (hne : n ≠ k) {v a : ν} {es : List (String × ν)}
    (h : (k, a) ∈ es) :
    (k, a) ∈ insertEntry n v es := by
  induction es with
  | nil => cases h
  | cons e es ih =>
    unfold insertEntry
    split
    · exact List.mem_cons_of_mem _ h
    · split
      next he =>
        obtain rfl | h := List.mem_cons.mp h
        · exact absurd he hne
        · exact List.mem_cons_of_mem _ h
      · obtain rfl | h := List.mem_cons.mp h
        · exact List.mem_cons_self
        · exact List.mem_cons_of_mem _ (ih h)

end Dict

namespace Json

/-- A step into a value: to the member of a name, or to an item of a list. -/
inductive Step where
  | member (name : String)
  | item (i : Nat)
  deriving DecidableEq

/-- The member of a name. Of several the last counts. -/
def member? (k : String) : List (Str × Json) → Option Json
  | [] => none
  | (.ok n, v) :: ms => (member? k ms).or (if n = k then some v else none)
  | (.error _, _) :: ms => member? k ms

/-- The value at the end of the steps. -/
def at? : List Step → Json → Option Json
  | [], v => some v
  | .member k :: p, .object ms => (member? k ms).bind (at? p)
  | .item i :: p, .array vs => vs[i]?.bind (at? p)
  | _, _ => none

/-- The places of a value that there are fields for. -/
inductive Schema where
  | value
  | list (items : Schema)
  | dict (members : Schema)
  | record (fields : List (String × Schema))

/-- The members of a record with these fields. Where it is a list, its items stand for them in
order. -/
def recordMembers (names : List String) : Json → List (Str × Json)
  | .object ms => ms
  | .array vs => (names.map .ok).zip vs
  | _ => []

/-- The value at a place that there is a field for. -/
def Schema.get? : List Step → Schema → Json → Option Json
  | [], _, v => some v
  | .item i :: p, .list s, .array vs => vs[i]?.bind (get? p s)
  | .member k :: p, .dict s, .object ms => (member? k ms).bind (get? p s)
  | .member k :: p, .record fs, v =>
    (fs.lookup k).bind fun s => (member? k (recordMembers (fs.map Prod.fst) v)).bind (get? p s)
  | _, _, _ => none

/-- How a value stays: as it is, or as a list of as many items or an object, of which each part has
a place of its own. A record that was a list becomes an object. -/
inductive KeptAs : Json → Json → Prop
  | same (v : Json) : KeptAs v v
  | items {vs ws : List Json} (h : vs.length = ws.length) : KeptAs (.array vs) (.array ws)
  | members (ms ns : List (Str × Json)) : KeptAs (.object ms) (.object ns)
  | record (vs : List Json) (ns : List (Str × Json)) : KeptAs (.array vs) (.object ns)

/-- Whatever stands at a place with a field stays there when the value is decoded and written again,
unless it is null. -/
def Codec.Keeps {α : Type} (c : Codec α) (s : Schema) : Prop :=
  ∀ ⦃v a⦄, c.decode v = .ok a → ∀ ⦃p x⦄, s.get? p v = some x → x ≠ .null →
    ∃ y, (c.encode a).at? p = some y ∧ x.KeptAs y

section Members

variable {k : String} {v : Json} {ms : List (Str × Json)}

theorem member?_cons_of_ne {n : String} (h : n ≠ k) :
    member? k ((.ok n, v) :: ms) = member? k ms := by
  simp [member?, h]

theorem member?_cons_self (h : member? k ms = none) : member? k ((.ok k, v) :: ms) = some v := by
  simp [member?, h]

theorem member?_eq_none (h : ∀ m ∈ ms, m.1 ≠ .ok k) : member? k ms = none := by
  induction ms with
  | nil => rfl
  | cons m ms ih =>
    obtain ⟨hm, hms⟩ := List.forall_mem_cons.mp h
    obtain ⟨n | n, v⟩ := m
    · exact ih hms
    · exact (member?_cons_of_ne fun he => hm (congrArg Except.ok he)).trans (ih hms)

end Members

namespace Codec

variable {α : Type} {c : Codec α} {s : Schema} {v : Json}

theorem get?_null {p : List Step} {x : Json} (h : s.get? p .null = some x) : x = .null := by
  cases p with
  | nil => exact (Option.some.inj h).symm
  | cons step p => cases step <;> cases s <;> simp [Schema.get?, recordMembers, member?] at h

/-- What is written as it was. -/
theorem keeps_value (h : ∀ v a, c.decode v = .ok a → c.encode a = v) : c.Keeps .value := by
  intro v a ha p x hx _
  cases p with
  | nil =>
    obtain rfl := Option.some.inj hx
    exact ⟨c.encode a, rfl, h v a ha ▸ .same _⟩
  | cons step p => cases step <;> simp [Schema.get?] at hx

theorem keeps_string : string.Keeps .value := keeps_value fun v s h => by
  simp only [string] at h
  split at h <;> cases h
  rfl

theorem keeps_bool : bool.Keeps .value := keeps_value fun v b h => by
  simp only [bool] at h
  split at h <;> cases h
  rfl

theorem real?_ne_integer (n : Numeral) :
    (∀ k, n.real? ≠ some (.natural k)) ∧ ∀ k, n.real? ≠ some (.negative k) := by
  simp [Numeral.real?]

/-- A number that is an integer is written as one. -/
theorem eq_ofInt_of_number? {n : Numeral} :
    (∀ k, n.number? = some (.natural k) → n = .ofInt k) ∧
      ∀ k, n.number? = some (.negative k) → n = .ofInt k ∧ -0x8000000000000000 ≤ k := by
  obtain ⟨hnatural, hnegative⟩ := real?_ne_integer n
  have hreal : (∀ k, n.real? = some (.natural k) → n = .ofInt k) ∧
      ∀ k, n.real? = some (.negative k) → n = .ofInt k ∧ -0x8000000000000000 ≤ k :=
    ⟨fun k hk => absurd hk (hnatural k), fun k hk => absurd hk (hnegative k)⟩
  unfold Numeral.number?
  split
  next whole =>
    split
    · constructor <;> intro k hk <;> cases hk
      simp [Numeral.ofInt]
    · exact hreal
  next whole =>
    split
    next hwhole =>
      constructor <;> intro k hk <;> cases hk
      refine ⟨?_, by omega⟩
      simp [Numeral.ofInt, hwhole.1]
    · exact hreal
  · exact hreal

theorem eq_ofInt_of_integer? {k : Int} (h : integer? v = some k) :
    v = .number (.ofInt k) ∧ -0x8000000000000000 ≤ k := by
  unfold integer? at h
  split at h
  next n =>
    split at h
    next m hm =>
      cases h
      exact ⟨congrArg Json.number (eq_ofInt_of_number?.1 m hm), by omega⟩
    next m hm =>
      cases h
      obtain ⟨hn, hlow⟩ := eq_ofInt_of_number?.2 k hm
      exact ⟨congrArg Json.number hn, hlow⟩
    next => cases h
  next => cases h

theorem keeps_int64 : int64.Keeps .value := keeps_value fun v i h => by
  simp only [int64] at h
  split at h
  next k hk =>
    obtain ⟨rfl, hlow⟩ := eq_ofInt_of_integer? hk
    split at h <;> cases h
    simp only [int64]
    rw [Int64.toInt_ofInt_of_le hlow (by assumption)]
  next => cases h

theorem Keeps.option (h : c.Keeps s) : c.option.Keeps s := by
  intro v a ha p x hx hnull
  by_cases hv : v = .null
  · exact absurd (get?_null (hv ▸ hx)) hnull
  · rw [option_decode_of_ne c hv] at ha
    obtain ⟨b, hb, rfl⟩ := map_eq_ok_iff.mp ha
    exact h hb hx hnull

theorem getElem?_decodeItems {vs : List Json} {as : List α} (h : decodeItems c vs = .ok as)
    {i : Nat} {v : Json} (hv : vs[i]? = some v) :
    ∃ a, as[i]? = some a ∧ c.decode v = .ok a := by
  induction vs generalizing as i with
  | nil => cases hv
  | cons w vs ih =>
    obtain ⟨a, rest, ha, hrest, rfl⟩ := decodeItems_cons_eq_ok_iff.mp h
    cases i with
    | zero =>
      obtain rfl := Option.some.inj hv
      exact ⟨a, rfl, ha⟩
    | succ i => exact ih hrest hv

theorem length_decodeItems {vs : List Json} {as : List α} (h : decodeItems c vs = .ok as) :
    as.length = vs.length := by
  induction vs generalizing as with
  | nil =>
    cases h
    rfl
  | cons w vs ih =>
    obtain ⟨a, rest, -, hrest, rfl⟩ := decodeItems_cons_eq_ok_iff.mp h
    exact congrArg (· + 1) (ih hrest)

theorem Keeps.list (h : c.Keeps s) : c.list.Keeps (.list s) := by
  intro v as has p x hx hnull
  obtain ⟨vs, rfl⟩ : ∃ vs, v = .array vs := by
    cases v with
    | array vs => exact ⟨vs, rfl⟩
    | _ => cases has
  match p with
  | [] =>
    obtain rfl := Option.some.inj hx
    exact ⟨_, rfl, .items (by rw [List.length_map, length_decodeItems has])⟩
  | .member k :: p => cases hx
  | .item i :: p =>
    obtain ⟨w, hw, hx⟩ := Option.bind_eq_some_iff.mp hx
    obtain ⟨a, ha, hdecode⟩ := getElem?_decodeItems has hw
    obtain ⟨y, hy, hkept⟩ := h hdecode hx hnull
    have hitem : (as.map c.encode)[i]? = some (c.encode a) := by simp [ha]
    exact ⟨y, Option.bind_eq_some_iff.mpr ⟨_, hitem, hy⟩, hkept⟩

/-- Where the names ascend, every member counts. -/
theorem member?_map_of_sorted (f : α → Json) {es : List (String × α)}
    (hsorted : es.Pairwise fun a b => a.1 < b.1) {k : String} {a : α} (h : (k, a) ∈ es) :
    member? k (es.map fun e => (.ok e.1, f e.2)) = some (f a) := by
  induction es with
  | nil => cases h
  | cons e es ih =>
    obtain ⟨hbelow, hsorted⟩ := List.pairwise_cons.mp hsorted
    rw [List.map_cons]
    obtain rfl | h := List.mem_cons.mp h
    · refine member?_cons_self (member?_eq_none fun m hm he => ?_)
      obtain ⟨e, hmem, rfl⟩ := List.mem_map.mp hm
      have hlt := hbelow e hmem
      rw [Except.ok.inj he] at hlt
      exact String.lt_irrefl _ hlt
    · rw [member?_cons_of_ne fun he => String.lt_irrefl _ (he ▸ hbelow _ h)]
      exact ih hsorted h

theorem member?_decodeEntries {d d' : Dict α} {ms : List (Str × Json)}
    (h : decodeEntries c d ms = .ok d') {k : String} :
    (∀ a, member? k ms = none → (k, a) ∈ d.entries → (k, a) ∈ d'.entries) ∧
      ∀ w, member? k ms = some w → ∃ a, (k, a) ∈ d'.entries ∧ c.decode w = .ok a := by
  induction ms generalizing d with
  | nil =>
    cases h
    exact ⟨fun a _ ha => ha, nofun⟩
  | cons m ms ih =>
    obtain ⟨n, v⟩ := m
    cases n with
    | error e => cases h
    | ok n =>
      simp only [decodeEntries, readStr] at h
      split at h
      · cases h
      next b hb =>
        obtain ⟨hold, hnew⟩ := ih h
        refine ⟨fun a hnone ha => ?_, fun w hw => ?_⟩
        · obtain ⟨hms, hne⟩ : member? k ms = none ∧ n ≠ k := by simpa [member?] using hnone
          exact hold a hms (Dict.mem_insertEntry_of_ne hne ha)
        · cases hms : member? k ms with
          | some w' =>
            obtain rfl : w' = w := by simpa [member?, hms] using hw
            exact hnew w' hms
          | none =>
            obtain ⟨rfl, rfl⟩ : n = k ∧ v = w := by simpa [member?, hms] using hw
            exact ⟨b, hold b hms (Dict.mem_insertEntry_self ..), hb⟩

theorem Keeps.dict (h : c.Keeps s) : c.dict.Keeps (.dict s) := by
  intro v d hd p x hx hnull
  obtain ⟨ms, rfl⟩ : ∃ ms, v = .object ms := by
    cases v with
    | object ms => exact ⟨ms, rfl⟩
    | _ => cases hd
  match p with
  | [] =>
    obtain rfl := Option.some.inj hx
    exact ⟨_, rfl, .members _ _⟩
  | .item i :: p => cases hx
  | .member k :: p =>
    obtain ⟨w, hw, hx⟩ := Option.bind_eq_some_iff.mp hx
    obtain ⟨a, ha, hdecode⟩ := (member?_decodeEntries hd).2 w hw
    obtain ⟨y, hy, hkept⟩ := h hdecode hx hnull
    have hmember := member?_map_of_sorted c.encode d.sorted ha
    exact ⟨y, Option.bind_eq_some_iff.mpr ⟨_, hmember, hy⟩, hkept⟩

end Codec

/-- The field keeps what it takes, and is left out for null only. -/
structure Field.Keeps {α : Type} (f : Field α) (s : Schema) : Prop where
  codec : f.codec.Keeps s
  null_of_omits : ∀ v a, f.codec.decode v = .ok a → f.omits a = true → v = .null

namespace Field

variable {α : Type} {name : String} {c : Codec α} {s : Schema}

theorem keeps_required (h : c.Keeps s) : (required name c).Keeps s := ⟨h, nofun⟩

theorem keeps_withDefault (h : c.Keeps s) {a : α} : (withDefault name c a).Keeps s := ⟨h, nofun⟩

theorem keeps_optional (h : c.Keeps s) : (optional name c).Keeps s where
  codec := h.option
  null_of_omits v a hv ha := by
    by_cases hnull : v = .null
    · exact hnull
    · obtain ⟨b, -, rfl⟩ := map_eq_ok_iff.mp ((Codec.option_decode_of_ne c hnull).symm.trans hv)
      cases ha

end Field

namespace Fields

variable {ts : List Type}

/-- The first fields keep what they take. -/
inductive Keeps : {ts : List Type} → Fields ts → List (String × Schema) → Prop
  | nil {ts : List Type} (fs : Fields ts) : Keeps fs []
  | cons {α : Type} {ts : List Type} {f : Field α} {s : Schema} {fs : Fields ts}
      {ss : List (String × Schema)} (hf : f.Keeps s) (h : Keeps fs ss) :
      Keeps (.cons f fs) ((f.name, s) :: ss)

/-- The values of the fields are those of the members. -/
def Takes : {ts : List Type} → Fields ts → List (Str × Json) → Tuple ts → Prop
  | _, .nil, _, _ => True
  | _, .cons f fs, ms, (a, as) =>
    (∀ v, member? f.name ms = some v → f.codec.decode v = .ok a) ∧ fs.Takes ms as

/-- The first slot takes the member of its name, and the other slots take the rest. -/
theorem putAll_cons_split {α : Type} {f : Field α} {fs : Fields ts} (hname : f.name ∉ fs.names)
    {slot slot' : Option α} {slots slots' : Slots ts} {ms : List (Str × Json)}
    (h : (cons f fs).putAll (slot, slots) ms = .ok (slot', slots')) :
    fs.putAll slots ms = .ok slots' ∧
      match member? f.name ms with
      | none => slot' = slot
      | some v => slot = none ∧ ∃ a, f.codec.decode v = .ok a ∧ slot' = some a := by
  induction ms generalizing slot slots with
  | nil =>
    cases h
    exact ⟨rfl, rfl⟩
  | cons m ms ih =>
    obtain ⟨k, v⟩ := m
    obtain ⟨k, ⟨slot₁, slots₁⟩, rfl, hput, hrest⟩ := putAll_cons_eq_ok_iff.mp h
    obtain ⟨hslots, hslot⟩ := ih hrest
    obtain ⟨rfl, rfl, a, ha, he⟩ | ⟨hne, rest, hput, he⟩ := put_cons_eq_ok_iff.mp hput
    · cases he
      cases hms : member? f.name ms with
      | some w =>
        rw [hms] at hslot
        cases hslot.1
      | none =>
        rw [hms] at hslot
        rw [member?_cons_self hms]
        exact ⟨putAll_cons_eq_ok_iff.mpr ⟨_, slots, rfl, put_of_not_mem hname slots, hslots⟩,
          rfl, a, ha, hslot⟩
    · cases he
      rw [member?_cons_of_ne (Ne.symm hne)]
      exact ⟨putAll_cons_eq_ok_iff.mpr ⟨k, slots₁, rfl, hput, hslots⟩, hslot⟩

theorem takes_of_putAll {fs : Fields ts} (hnames : fs.names.Nodup) {ms : List (Str × Json)}
    {slots : Slots ts} {as : Tuple ts} (hput : fs.putAll (noSlots ts) ms = .ok slots)
    (hcomplete : fs.complete slots = .ok as) : fs.Takes ms as := by
  induction fs with
  | nil => trivial
  | cons f fs ih =>
    obtain ⟨slot, slots⟩ := slots
    obtain ⟨a, as⟩ := as
    obtain ⟨hname, hnames⟩ := List.nodup_cons.mp hnames
    obtain ⟨hslots, hslot⟩ := putAll_cons_split hname hput
    simp only [complete] at hcomplete
    split at hcomplete
    next b hb =>
      obtain ⟨rest, hrest, he⟩ := map_eq_ok_iff.mp hcomplete
      cases he
      refine ⟨fun v hv => ?_, ih hnames hslots hrest⟩
      rw [hv] at hslot
      obtain ⟨-, a', ha', rfl⟩ := hslot
      obtain rfl : a' = a := by simpa using hb
      exact ha'
    next => cases hcomplete

/-- Members of other names make no difference. -/
theorem Takes.cons_of_not_mem {fs : Fields ts} {n : String} (hn : n ∉ fs.names) {v : Json}
    {ms : List (Str × Json)} {as : Tuple ts} (h : fs.Takes ms as) :
    fs.Takes ((.ok n, v) :: ms) as := by
  induction fs with
  | nil => trivial
  | cons f fs ih =>
    obtain ⟨hne, hn⟩ := not_or.mp (mt List.mem_cons.mpr hn)
    obtain ⟨a, as⟩ := as
    refine ⟨fun w hw => h.1 w ?_, ih hn h.2⟩
    rwa [member?_cons_of_ne hne] at hw

theorem takes_nil (fs : Fields ts) (as : Tuple ts) : fs.Takes [] as := by
  induction fs with
  | nil => trivial
  | cons f fs ih => exact ⟨nofun, ih as.2⟩

/-- A list stands for the members of the first fields in order, as many as are named. -/
theorem takes_of_ofItems {fs : Fields ts} (hnames : fs.names.Nodup) {named : List String}
    (hnamed : named <+: fs.names) {record : String} {size i : Nat} {vs : List Json} {as : Tuple ts}
    (h : fs.ofItems record size i vs = .ok as) :
    fs.Takes ((named.map .ok).zip vs) as := by
  induction fs generalizing named i vs with
  | nil => trivial
  | cons f fs ih =>
    obtain ⟨hname, hnames⟩ := List.nodup_cons.mp hnames
    match named, vs with
    | [], _ => exact takes_nil _ _
    | _ :: _, [] => 
      rw [List.zip_nil_right]
      exact takes_nil _ _
    | n :: named, v :: vs =>
      obtain ⟨rfl, hrest⟩ := List.cons_prefix_cons.mp hnamed
      obtain ⟨a, rest, ha, hitems, rfl⟩ := ofItems_cons_eq_ok_iff.mp h
      have hothers : member? f.name ((named.map .ok).zip vs) = none := by
        refine member?_eq_none fun m hm he => hname (hrest.subset ?_)
        simpa [he] using (List.of_mem_zip hm).1
      refine ⟨fun w hw => ?_, (ih hnames hrest hitems).cons_of_not_mem hname⟩
      rw [List.map_cons, List.zip_cons_cons, member?_cons_self hothers] at hw
      exact Option.some.inj hw ▸ ha

/-- The member of a field is written as it was taken, unless it is null. -/
theorem Keeps.member? {fs : Fields ts} {ss : List (String × Schema)} (h : fs.Keeps ss)
    (hnames : fs.names.Nodup) {ms : List (Str × Json)} {as : Tuple ts} (htakes : fs.Takes ms as)
    {k : String} {s : Schema} (hk : ss.lookup k = some s) {v : Json} (hv : member? k ms = some v)
    {p : List Step} {x : Json} (hx : s.get? p v = some x) (hnull : x ≠ .null) :
    ∃ w y, Json.member? k (fs.encode as) = some w ∧ w.at? p = some y ∧ x.KeptAs y := by
  induction h with
  | nil => cases hk
  | @cons α ts f s' fs ss hf _ ih =>
    obtain ⟨a, as⟩ := as
    obtain ⟨hname, hnames⟩ := List.nodup_cons.mp hnames
    rw [encode_cons]
    by_cases hkf : k = f.name
    · subst hkf
      obtain rfl : s' = s := by simpa using hk
      have hdecode := htakes.1 v hv
      have homits : ¬f.omits a = true := fun ho =>
        hnull (Codec.get?_null (hf.null_of_omits v a hdecode ho ▸ hx))
      obtain ⟨y, hy, hkept⟩ := hf.codec hdecode hx hnull
      have hothers : Json.member? f.name (fs.encode as) = none := by
        refine member?_eq_none fun m hm he => ?_
        obtain ⟨k, hk, hmk⟩ := name_of_mem_encode hm
        exact hname (Except.ok.inj (he.symm.trans hmk) ▸ hk)
      rw [if_neg homits]
      exact ⟨_, y, member?_cons_self hothers, hy, hkept⟩
    · have hk : ss.lookup k = some s := by
        rwa [List.lookup_cons, beq_false_of_ne hkf] at hk
      obtain ⟨w, y, hw, hrest⟩ := ih hnames htakes.2 hk
      refine ⟨w, y, ?_, hrest⟩
      split
      · exact hw
      · rwa [member?_cons_of_ne (Ne.symm hkf)]

theorem Keeps.names_prefix {fs : Fields ts} {ss : List (String × Schema)} (h : fs.Keeps ss) :
    ss.map Prod.fst <+: fs.names := by
  induction h with
  | nil => exact List.nil_prefix
  | cons _ _ ih => exact List.cons_prefix_cons.mpr ⟨rfl, ih⟩

end Fields

namespace Codec

theorem keeps_record {ts : List Type} {β : Type} {name : String} {fs : Fields ts}
    {ss : List (String × Schema)} (h : fs.Keeps ss) (hnames : fs.names.Nodup) {parts : β → Tuple ts}
    {whole : Tuple ts → β} (hparts : ∀ as, parts (whole as) = as) :
    (record name fs parts whole).Keeps (.record ss) := by
  intro v b hb p x hx hnull
  obtain ⟨as, htakes, rfl, hvalue⟩ :
      ∃ as, fs.Takes (recordMembers (ss.map Prod.fst) v) as ∧ whole as = b ∧
      v.KeptAs (.object (fs.encode as)) := by
    cases v with
    | object ms =>
      obtain ⟨slots, as, hput, hcomplete, hwhole⟩ := record_decode_object_eq_ok_iff.mp hb
      exact ⟨as, Fields.takes_of_putAll hnames hput hcomplete, hwhole, .members _ _⟩
    | array vs =>
      obtain ⟨as, hitems, hwhole⟩ := map_eq_ok_iff.mp hb
      exact ⟨as, Fields.takes_of_ofItems hnames h.names_prefix hitems, hwhole, .record _ _⟩
    | _ => cases hb
  have hencode : (record name fs parts whole).encode (whole as) = .object (fs.encode as) :=
    congrArg (fun as => Json.object (fs.encode as)) (hparts as)
  rw [hencode]
  match p with
  | [] =>
    obtain rfl := Option.some.inj hx
    exact ⟨_, rfl, hvalue⟩
  | .item i :: p => cases hx
  | .member k :: p =>
    obtain ⟨s, hs, hx⟩ := Option.bind_eq_some_iff.mp hx
    obtain ⟨w, hw, hx⟩ := Option.bind_eq_some_iff.mp hx
    obtain ⟨w', y, hw', hy, hkept⟩ := h.member? hnames htakes hs hw hx hnull
    exact ⟨y, Option.bind_eq_some_iff.mpr ⟨w', hw', hy⟩, hkept⟩

end Codec

end Json

end Provision
