import Mathlib.Computability.Language
import Mathlib.Order.CompletePartialOrder
import Provision.Proofs.Violations

/-!
The names that are accepted, as languages of regular expressions: `[a-z]([-a-z0-9]{0,61}[a-z0-9])?`
for instances, and `[a-z0-9]([-a-z0-9]{0,61}[a-z0-9])?` for namespaces and secrets.
-/
namespace Provision

section Expressions

/-- One character that `p` holds of. -/
def oneOf (p : Char → Prop) : Language Char := {w | ∃ c, w = [c] ∧ p c}

/-- One character from `first` to `last`. -/
def charRange (first last : Char) : Language Char := oneOf fun c => first ≤ c ∧ c ≤ last

/-- A word of `l`, or none. -/
def optionally (l : Language Char) : Language Char := 1 + l

/-- At most `n` words of `l`. -/
def upTo (n : ℕ) (l : Language Char) : Language Char := ⨆ k ≤ n, l ^ k

end Expressions

/-- `[a-z0-9]` -/
def alphanumeric : Language Char := charRange 'a' 'z' + charRange '0' '9'

/-- `[-a-z0-9]` -/
def nameCharacter : Language Char := charRange '-' '-' + alphanumeric

/-- `[a-z]([-a-z0-9]{0,61}[a-z0-9])?` -/
def instanceNames : Language Char :=
  charRange 'a' 'z' * optionally (upTo 61 nameCharacter * alphanumeric)

/-- `[a-z0-9]([-a-z0-9]{0,61}[a-z0-9])?` -/
def labels : Language Char := alphanumeric * optionally (upTo 61 nameCharacter * alphanumeric)

section Words

variable {p q r : Char → Prop} {l : Language Char} {w : List Char}

theorem mem_oneOf : w ∈ oneOf p ↔ ∃ c, w = [c] ∧ p c := Iff.rfl

theorem oneOf_add (p q : Char → Prop) : oneOf p + oneOf q = oneOf fun c => p c ∨ q c := by
  ext w
  simp only [Language.mem_add, mem_oneOf, ← exists_or, ← and_or_left]

theorem mem_oneOf_mul : w ∈ oneOf p * l ↔ ∃ c v, w = c :: v ∧ p c ∧ v ∈ l := by
  rw [Language.mem_mul]
  constructor
  · rintro ⟨_, ⟨c, rfl, hc⟩, v, hv, rfl⟩
    exact ⟨c, v, rfl, hc, hv⟩
  · rintro ⟨c, v, rfl, hc, hv⟩
    exact ⟨[c], ⟨c, rfl, hc⟩, v, hv, rfl⟩

theorem mem_mul_oneOf : w ∈ l * oneOf p ↔ ∃ v c, w = v ++ [c] ∧ v ∈ l ∧ p c := by
  rw [Language.mem_mul]
  constructor
  · rintro ⟨v, hv, _, ⟨c, rfl, hc⟩, rfl⟩
    exact ⟨v, c, rfl, hv, hc⟩
  · rintro ⟨v, c, rfl, hv, hc⟩
    exact ⟨v, hv, [c], ⟨c, rfl, hc⟩, rfl⟩

theorem mem_oneOf_pow {k : ℕ} : w ∈ oneOf p ^ k ↔ w.length = k ∧ ∀ c ∈ w, p c := by
  induction k generalizing w with
  | zero =>
    rw [pow_zero, Language.mem_one, List.length_eq_zero_iff]
    exact ⟨fun h => ⟨h, by simp [h]⟩, And.left⟩
  | succ k ih =>
    rw [pow_succ', mem_oneOf_mul]
    constructor
    · rintro ⟨c, v, rfl, hc, hv⟩
      obtain ⟨hlength, hall⟩ := ih.mp hv
      exact ⟨congrArg Nat.succ hlength, List.forall_mem_cons.mpr ⟨hc, hall⟩⟩
    · rintro ⟨hlength, hall⟩
      obtain ⟨c, v, rfl⟩ := List.exists_cons_of_length_eq_add_one hlength
      obtain ⟨hc, hall⟩ := List.forall_mem_cons.mp hall
      exact ⟨c, v, rfl, hc, ih.mpr ⟨Nat.succ.inj hlength, hall⟩⟩

theorem mem_upTo_oneOf {n : ℕ} : w ∈ upTo n (oneOf p) ↔ w.length ≤ n ∧ ∀ c ∈ w, p c := by
  have hsup : w ∈ upTo n (oneOf p) ↔ ∃ k, k ≤ n ∧ w ∈ oneOf p ^ k := by
    simp only [upTo, Language.mem_iSup, exists_prop]
  rw [hsup]
  constructor
  · rintro ⟨k, hk, hw⟩
    obtain ⟨rfl, hall⟩ := mem_oneOf_pow.mp hw
    exact ⟨hk, hall⟩
  · rintro ⟨hlength, hall⟩
    exact ⟨w.length, hlength, mem_oneOf_pow.mpr ⟨rfl, hall⟩⟩

/-- A first character, and perhaps more of them up to a last one. The first may be the last. -/
theorem mem_framed {n : ℕ} (hpr : ∀ c, p c → r c) (hrq : ∀ c, r c → q c) :
    w ∈ oneOf p * optionally (upTo n (oneOf q) * oneOf r) ↔
      w.length ≤ n + 2 ∧ (∃ c ∈ w.head?, p c) ∧ (∀ c ∈ w, q c) ∧ ∃ c ∈ w.getLast?, r c := by
  rw [mem_oneOf_mul]
  constructor
  · rintro ⟨c, v, rfl, hc, hv⟩
    obtain hnil | hv := (Language.mem_add _ _ _).mp hv
    · obtain rfl := (Language.mem_one v).mp hnil
      simp [hc, hpr, hrq]
    · obtain ⟨u, d, rfl, hu, hd⟩ := mem_mul_oneOf.mp hv
      obtain ⟨hlength, hall⟩ := mem_upTo_oneOf.mp hu
      have hlast : d ∈ (c :: (u ++ [d])).getLast? := by
        rw [← List.cons_append, List.getLast?_concat]
        rfl
      refine ⟨by simpa using hlength, ⟨c, rfl, hc⟩, ?_, d, hlast, hd⟩
      simpa [or_imp, forall_and] using ⟨hrq c (hpr c hc), hall, hrq d hd⟩
  · rintro ⟨hlength, ⟨c, hhead, hc⟩, hall, d, hlast, hd⟩
    obtain ⟨v, rfl⟩ := List.head?_eq_some_iff.mp hhead
    refine ⟨c, v, rfl, hc, (Language.mem_add _ _ _).mpr ?_⟩
    obtain rfl | ⟨u, e, rfl⟩ := List.eq_nil_or_concat v
    · exact .inl rfl
    · rw [List.concat_eq_append] at hlength hall hlast ⊢
      rw [← List.cons_append, List.getLast?_concat] at hlast
      obtain rfl := Option.some.inj hlast
      refine .inr (mem_mul_oneOf.mpr
        ⟨u, e, rfl, mem_upTo_oneOf.mpr ⟨by simpa using hlength, fun x hx => ?_⟩, hd⟩)
      exact hall x (List.mem_cons_of_mem _ (List.mem_append_left _ hx))

end Words

section Characters

theorem isLower_iff {c : Char} : c.isLower = true ↔ 'a' ≤ c ∧ c ≤ 'z' := by
  have hlower : c.isLower = (decide ('a' ≤ c) && decide (c ≤ 'z')) := rfl
  rw [hlower, Bool.and_eq_true, decide_eq_true_iff, decide_eq_true_iff]

theorem isDigit_iff {c : Char} : c.isDigit = true ↔ '0' ≤ c ∧ c ≤ '9' := by
  simp [Char.isDigit, Char.le_def]

theorem charRange_self (d : Char) : charRange d d = oneOf (· = d) :=
  congrArg oneOf <| funext fun _ => propext
    ⟨fun h => Char.le_antisymm h.2 h.1, fun h => ⟨h ▸ Char.le_refl _, h ▸ Char.le_refl _⟩⟩

theorem charRange_lower : charRange 'a' 'z' = oneOf fun c => c.isLower = true := by
  simp only [charRange, isLower_iff]

theorem isNameChar_iff {c : Char} :
    isNameChar c = true ↔ c = '-' ∨ c.isLower = true ∨ c.isDigit = true := by
  simp only [isNameChar, Bool.or_eq_true, decide_eq_true_eq]
  exact or_comm

theorem isNameChar_ne_hyphen {c : Char} :
    isNameChar c = true ∧ c ≠ '-' ↔ c.isLower = true ∨ c.isDigit = true := by
  rw [isNameChar_iff]
  constructor
  · rintro ⟨rfl | h, hne⟩
    · exact absurd rfl hne
    · exact h
  · intro h
    refine ⟨.inr h, ?_⟩
    rintro rfl
    exact absurd h (by decide)

theorem alphanumeric_eq : alphanumeric = oneOf fun c => isNameChar c = true ∧ c ≠ '-' := by
  rw [alphanumeric, charRange, charRange, oneOf_add]
  simp only [isNameChar_ne_hyphen, isLower_iff, isDigit_iff]

theorem nameCharacter_eq : nameCharacter = oneOf fun c => isNameChar c = true := by
  rw [nameCharacter, charRange_self, alphanumeric_eq, oneOf_add]
  simp only [isNameChar_ne_hyphen]
  simp only [isNameChar_iff]

end Characters

section Names

variable {s : String}

/-- An end of a name. -/
theorem exists_end_iff {o : Option Char} (ho : ∃ c ∈ o, isNameChar c = true) :
    (∃ c ∈ o, isNameChar c = true ∧ c ≠ '-') ↔ o ≠ some '-' := by
  obtain ⟨c, rfl, hc⟩ := ho
  simp only [Option.mem_some, exists_eq_left', ne_eq, Option.some.injEq, hc, true_and]

theorem exists_head? {cs : List Char} (hne : cs ≠ []) (hall : ∀ c ∈ cs, isNameChar c = true) :
    ∃ c ∈ cs.head?, isNameChar c = true :=
  ⟨cs.head hne, List.head?_eq_some_head hne, hall _ (List.head_mem hne)⟩

theorem exists_getLast? {cs : List Char} (hne : cs ≠ []) (hall : ∀ c ∈ cs, isNameChar c = true) :
    ∃ c ∈ cs.getLast?, isNameChar c = true :=
  ⟨cs.getLast hne, List.getLast?_eq_some_getLast hne, hall _ (List.getLast_mem hne)⟩

theorem ne_nil_of_head? {cs : List Char} {P : Char → Prop} (h : ∃ c ∈ cs.head?, P c) : cs ≠ [] := by
  rintro rfl
  obtain ⟨c, hc, -⟩ := h
  cases hc

theorem mem_instanceNames : s.toList ∈ instanceNames ↔ IsInstanceName s := by
  have hlower : ∀ c : Char, c.isLower = true → isNameChar c = true ∧ c ≠ '-' :=
    fun _ hc => isNameChar_ne_hyphen.mpr (.inl hc)
  rw [instanceNames, charRange_lower, nameCharacter_eq, alphanumeric_eq,
    mem_framed hlower fun _ => And.left]
  constructor
  · rintro ⟨hlength, hstart, hchars, hending⟩
    exact ⟨hlength, hstart, hchars,
      (exists_end_iff (exists_getLast? (ne_nil_of_head? hstart) hchars)).mp hending⟩
  · intro h
    have hending := exists_end_iff (exists_getLast? (ne_nil_of_head? h.start) h.chars)
    exact ⟨h.length, h.start, h.chars, hending.mpr h.ending⟩

theorem mem_labels : s.toList ∈ labels ↔ IsLabel s := by
  rw [labels, nameCharacter_eq, alphanumeric_eq, mem_framed (fun _ => id) fun _ => And.left]
  constructor
  · rintro ⟨hlength, hstart, hchars, hending⟩
    have hne := ne_nil_of_head? hstart
    exact ⟨by simpa using hne, hlength, hchars,
      (exists_end_iff (exists_head? hne hchars)).mp hstart,
      (exists_end_iff (exists_getLast? hne hchars)).mp hending⟩
  · intro h
    have hne : s.toList ≠ [] := by simpa using h.nonempty
    exact ⟨h.length, (exists_end_iff (exists_head? hne h.chars)).mpr h.start, h.chars,
      (exists_end_iff (exists_getLast? hne h.chars)).mpr h.ending⟩

theorem IsInstanceName.isLabel (h : IsInstanceName s) : IsLabel s := by
  have hne := ne_nil_of_head? h.start
  refine ⟨by simpa using hne, h.length, h.chars, ?_, h.ending⟩
  obtain ⟨c, hc, hlower⟩ := h.start
  rw [Option.mem_def.mp hc]
  rintro ⟨⟩
  exact absurd hlower (by decide)

theorem instanceNames_le_labels : instanceNames ≤ labels := by
  intro w hw
  rw [← String.toList_ofList (l := w)] at hw ⊢
  exact mem_labels.mpr (mem_instanceNames.mp hw).isLabel

theorem ascii_of_mem_labels {w : List Char} (hw : w ∈ labels) {c : Char} (hc : c ∈ w) :
    c.toNat < 128 ∧ c ∉ ['/', '.', '\\', '\x00'] := by
  rw [← String.toList_ofList (l := w)] at hw hc
  have hname := (mem_labels.mp hw).chars c hc
  refine ⟨toNat_lt_of_isNameChar hname, fun hmem => ?_⟩
  have hnone : ['/', '.', '\\', '\x00'].all (fun d => !isNameChar d) = true := by decide +kernel
  exact absurd hname (by simpa using List.all_eq_true.mp hnone c hmem)

theorem nameError?_eq_none : nameError? s = none ↔ s.toList ∈ instanceNames := by
  rw [mem_instanceNames, ← instanceNameFault?_eq_none, nameError?, Option.map_eq_none_iff]

end Names

namespace Machine

variable {m : Machine} {s : String}

/-- What is reported of a machine. -/
def violations (m : Machine) : List Violation :=
  m.validationError?.elim [] ValidationError.violations

def inNamespace (m : Machine) (ns : String) : Machine :=
  { m with metadata := { m.metadata with ns := ns } }

def withSecret (m : Machine) (name : Option String) : Machine :=
  { m with spec := { m.spec with userDataSecret := name } }

theorem violations_eq : m.violations = m.broken.map BrokenRule.violation :=
  ValidationError.violations_ofViolations? _

theorem exists_violation_iff {field : String} :
    (∃ v ∈ m.violations, v.field = field) ↔ ∃ r, m.Breaks r ∧ r.field = field := by
  simp only [violations_eq, List.mem_map, exists_exists_and_eq_and, mem_broken]
  rfl

theorem exists_ns_violation_iff :
    (∃ v ∈ m.violations, v.field = "metadata.namespace") ↔ m.ns ≠ "" ∧ ¬IsLabel m.ns := by
  rw [exists_violation_iff]
  constructor
  · rintro ⟨r, hr, hfield⟩
    have hplace : r.place = (BrokenRule.ns "").place := BrokenRule.place_eq_of_field hfield
    obtain ⟨v, rfl⟩ : ∃ v, r = .ns v := by cases r <;> simp_all [BrokenRule.place]
    cases hr with
    | ns hne h => exact ⟨hne, h⟩
    | disk _ h => cases h
    | key _ h => cases h
  · rintro ⟨hne, h⟩
    exact ⟨_, .ns hne h, rfl⟩

theorem exists_secret_violation_iff :
    (∃ v ∈ m.violations, v.field = "spec.userDataSecret.name") ↔
      ∃ s, m.spec.userDataSecret = some s ∧ ¬IsLabel s := by
  rw [exists_violation_iff]
  constructor
  · rintro ⟨r, hr, hfield⟩
    have hplace : r.place = BrokenRule.noSecretName.place := BrokenRule.place_eq_of_field hfield
    obtain rfl | ⟨v, rfl⟩ : r = .noSecretName ∨ ∃ v, r = .secretName v := by
      cases r <;> simp_all [BrokenRule.place]
    · cases hr with
      | noSecretName hs h => exact ⟨_, hs, fun hl => by simp [hl.isBlank_eq_false] at h⟩
      | disk _ h => cases h
      | key _ h => cases h
    · cases hr with
      | secretName hs _ h => exact ⟨_, hs, h⟩
      | disk _ h => cases h
      | key _ h => cases h
  · rintro ⟨s, hs, h⟩
    cases hblank : Text.isBlank s with
    | true => exact ⟨_, .noSecretName hs hblank, rfl⟩
    | false => exact ⟨_, .secretName hs hblank h, rfl⟩

theorem ns_unblamed_iff : (∀ v ∈ m.violations, v.field ≠ "metadata.namespace") ↔
    m.ns = "" ∨ IsLabel m.ns := by
  have hiff := not_congr (exists_ns_violation_iff (m := m))
  push Not at hiff
  rw [hiff, or_iff_not_imp_left]

theorem secret_unblamed_iff : (∀ v ∈ m.violations, v.field ≠ "spec.userDataSecret.name") ↔
    ∀ s, m.spec.userDataSecret = some s → IsLabel s := by
  have hiff := not_congr (exists_secret_violation_iff (m := m))
  push Not at hiff
  exact hiff

/-- A namespace changes nothing else in the report. -/
theorem violations_inNamespace (h : IsLabel s) :
    (m.inNamespace s).violations = (m.inNamespace "").violations := by
  have hnil : ∀ n : Machine, n.ns = "" ∨ IsLabel n.ns →
      brokenIf (n.ns ≠ "" && !isDnsLabel n.ns) (.ns n.ns) = [] := by
    intro n hn
    rw [brokenIf_eq_nil]
    simpa [or_iff_not_imp_left, isDnsLabel_iff] using hn
  rw [violations_eq, violations_eq, broken, broken, hnil (m.inNamespace s) (.inr h),
    hnil (m.inNamespace "") (.inl rfl)]
  rfl

/-- The name of a secret changes nothing else in the report. -/
theorem violations_withSecret (h : IsLabel s) :
    (m.withSecret (some s)).violations = (m.withSecret none).violations := by
  have hs : (m.withSecret (some s)).spec.brokenSecret = [] :=
    MachineSpec.brokenSecret_eq_nil.mpr fun _ he => Option.some.inj he ▸ h
  rw [violations_eq, violations_eq, broken, broken, hs]
  rfl

/-- No name is accepted but those of the expressions: for an instance, for the namespace that a
machine is in, and for the secret that it names. -/
theorem accepted_names_regular :
    (∀ s, nameError? s = none ↔ s.toList ∈ instanceNames) ∧
    (∀ (m : Machine) (s : String), s ≠ "" →
      (s.toList ∈ labels ↔ ∀ v ∈ (m.inNamespace s).violations, v.field ≠ "metadata.namespace") ∧
      (s.toList ∈ labels ↔ (m.inNamespace s).violations = (m.inNamespace "").violations)) ∧
    (∀ (m : Machine) (s : String),
      (s.toList ∈ labels ↔
        ∀ v ∈ (m.withSecret (some s)).violations, v.field ≠ "spec.userDataSecret.name") ∧
      (s.toList ∈ labels ↔ (m.withSecret (some s)).violations = (m.withSecret none).violations)) ∧
    instanceNames ≤ labels ∧
    ∀ w ∈ labels, ∀ c ∈ w, c.toNat < 128 ∧ c ∉ ['/', '.', '\\', '\x00'] := by
  refine ⟨fun _ => nameError?_eq_none, fun m s hne => ?_, fun m s => ?_, instanceNames_le_labels,
    fun w hw c => ascii_of_mem_labels hw⟩
  · have hfield : (∀ v ∈ (m.inNamespace s).violations, v.field ≠ "metadata.namespace") ↔
      IsLabel s := by
      rw [ns_unblamed_iff]
      exact or_iff_right hne
    rw [mem_labels, hfield]
    refine ⟨Iff.rfl, violations_inNamespace, fun he => ?_⟩
    rw [← hfield, he, ns_unblamed_iff]
    exact .inl rfl
  · have hfield : (∀ v ∈ (m.withSecret (some s)).violations, v.field ≠ "spec.userDataSecret.name") ↔
      IsLabel s := by
      rw [secret_unblamed_iff]
      exact ⟨fun h => h s rfl, fun h _ he => Option.some.inj he ▸ h⟩
    rw [mem_labels, hfield]
    refine ⟨Iff.rfl, violations_withSecret, fun he => ?_⟩
    rw [← hfield, he, secret_unblamed_iff]
    exact nofun

/-- A namespace may have 63 characters, and no more. -/
theorem accepted_names_regular_longest :
    let longest := String.ofList (List.replicate 63 '0')
    let longer := String.ofList (List.replicate 64 '0')
    (longest ≠ "" ∧ ∀ v ∈ (inNamespace default longest).violations,
      v.field ≠ "metadata.namespace") ∧
      (longer ≠ "" ∧ ¬∀ v ∈ (inNamespace default longer).violations,
        v.field ≠ "metadata.namespace") ∧
      '0' ∉ ['/', '.', '\\', '\x00'] := by
  intro longest longer
  have hlongest : longest.toList ∈ labels := mem_labels.mpr (isDnsLabel_iff.mp (by decide +kernel))
  have hlonger : longer.toList ∉ labels :=
    fun h => absurd (isDnsLabel_iff.mpr (mem_labels.mp h)) (by decide +kernel)
  have hne : longest ≠ "" ∧ longer ≠ "" := by decide +kernel
  obtain ⟨-, hns, -, -, hascii⟩ := accepted_names_regular
  refine ⟨⟨hne.1, (hns default longest hne.1).1.mp hlongest⟩, ⟨hne.2, ?_⟩,
    (hascii _ hlongest '0' ?_).2⟩
  · exact mt (hns default longer hne.2).1.mpr hlonger
  · rw [String.toList_ofList]
    exact List.mem_replicate.mpr ⟨by decide, rfl⟩

end Machine
end Provision
