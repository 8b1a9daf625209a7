import Mathlib.Data.List.TakeWhile
import Provision.Config
import Provision.Proofs.Unsigned

/-!
Which variables make settings. Those for seconds must hold numerals, if anything; a variable that is
blank might as well not be set, and blanks around a numeral do not count.
-/
namespace Provision

namespace Text

section Padding

variable {p : Char → Bool} {before cs after : List Char}

theorem stripBoth_pad (hbefore : ∀ c ∈ before, p c = true) (hafter : ∀ c ∈ after, p c = true) :
    stripBoth p (before ++ (cs ++ after)) = stripBoth p cs := by
  rw [stripBoth, List.dropWhile_append_of_pos hbefore, List.dropWhile_append]
  split
  next hnil =>
    have hcs : cs.dropWhile p = [] := List.isEmpty_iff.mp hnil
    have hend : after.dropWhile p = [] := dropWhile_eq_nil_iff_all.mpr (List.all_eq_true.mpr hafter)
    rw [stripBoth, hcs, hend]
  next =>
    have hend : ∀ c ∈ after.reverse, p c = true := fun c hc => hafter c (List.mem_reverse.mp hc)
    rw [List.reverse_append, List.dropWhile_append_of_pos hend, stripBoth]

theorem stripBoth_of_forall_not (h : ∀ c ∈ cs, p c = false) : stripBoth p cs = cs := by
  have hkeep : ∀ ds : List Char, (∀ c ∈ ds, p c = false) → ds.dropWhile p = ds := by
    intro ds hds
    cases ds with
    | nil => rfl
    | cons d ds => exact List.dropWhile_cons_of_neg (by simp [hds d List.mem_cons_self])
  rw [stripBoth, hkeep cs h, hkeep _ fun c hc => h c (List.mem_reverse.mp hc), List.reverse_reverse]

/-- What is taken away at both ends. -/
theorem exists_pad (p : Char → Bool) (cs : List Char) :
    ∃ before after, (∀ c ∈ before, p c = true) ∧ (∀ c ∈ after, p c = true) ∧
      cs = before ++ (stripBoth p cs ++ after) := by
  refine ⟨cs.takeWhile p, ((cs.dropWhile p).reverse.takeWhile p).reverse,
    fun c => List.mem_takeWhile_imp,
    fun c hc => List.mem_takeWhile_imp (List.mem_reverse.mp hc), ?_⟩
  rw [stripBoth, ← List.reverse_append, List.takeWhile_append_dropWhile, List.reverse_reverse,
    List.takeWhile_append_dropWhile]

end Padding

variable {a b s : String}

theorem isBlank_iff : isBlank s = true ↔ ∀ c ∈ s.toList, isSpace c = true := List.all_eq_true

theorem isBlank_pad (ha : isBlank a = true) (hb : isBlank b = true) :
    isBlank (a ++ s ++ b) = isBlank s := by
  simp only [isBlank, String.toList_append, List.all_append] at ha hb ⊢
  rw [ha, hb, Bool.true_and, Bool.and_true]

theorem trim_pad (ha : isBlank a = true) (hb : isBlank b = true) : trim (a ++ s ++ b) = trim s := by
  rw [trim, String.toList_append, String.toList_append, List.append_assoc,
    stripBoth_pad (isBlank_iff.mp ha) (isBlank_iff.mp hb), trim]

theorem exists_eq_pad_trim (s : String) :
    ∃ a b, isBlank a = true ∧ isBlank b = true ∧ s = a ++ trim s ++ b := by
  obtain ⟨before, after, hbefore, hafter, hs⟩ := exists_pad isSpace s.toList
  refine ⟨.ofList before, .ofList after, isBlank_iff.mpr ?_, isBlank_iff.mpr ?_,
    String.toList_inj.mp ?_⟩
  · rwa [String.toList_ofList]
  · rwa [String.toList_ofList]
  · rw [String.toList_append, String.toList_append, trim, String.toList_ofList,
      String.toList_ofList,
      String.toList_ofList, List.append_assoc]
    exact hs

/-- There are no blanks in a numeral. -/
theorem WritesUnsigned.isSpace_eq_false {cs : List Char} {n : Nat} (h : WritesUnsigned cs n)
    {c : Char} (hc : c ∈ cs) :
    isSpace c = false := by
  obtain hdigit | rfl := h.isDigit_or_eq_plus hc
  · have hrange : 48 ≤ c.toNat ∧ c.toNat ≤ 57 := by
      simpa [Char.isDigit, UInt32.le_iff_toNat_le] using hdigit
    simp [isSpace]
    omega
  · decide

theorem WritesUnsigned.trim_eq {n : Nat} (h : WritesUnsigned s.toList n) : trim s = s := by
  rw [trim, stripBoth_of_forall_not fun _ => h.isSpace_eq_false, String.ofList_toList]

theorem WritesUnsigned.isBlank_eq_false {n : Nat} (h : WritesUnsigned s.toList n) :
    isBlank s = false := by
  cases hblank : isBlank s with
  | false => rfl
  | true =>
    have hnil : s.toList = [] := by
      rw [← h.trim_eq, trim_eq_empty_iff.mpr hblank, String.toList_empty]
    rw [hnil] at h
    cases h with
    | bare h => exact absurd rfl h.1

end Text

namespace Config

open Text (isBlank trim WritesUnsigned)

/-- The time that a variable for seconds sets: as many seconds as its numeral says, with blanks
around it at will, or the default when the variable is not set or blank. -/
inductive SetsSeconds (default : Duration) : Option String → Duration → Prop
  | unset : SetsSeconds default none default
  | blank {v : String} (h : isBlank v = true) : SetsSeconds default (some v) default
  | numeral {a s b : String} {n : Nat} (ha : isBlank a = true) (hb : isBlank b = true)
      (h : WritesUnsigned s.toList n) (hn : n < UInt64.size) :
      SetsSeconds default (some (a ++ s ++ b)) (.ofSeconds n)

/-- The variables for seconds. -/
def secondsKeys : List String := [intervalKey, timeoutKey, httpTimeoutKey]

/-- Two values of a variable that should make no difference: none and a blank one, and one for
seconds with and without blanks around it. -/
inductive Alike (key : String) : Option String → Option String → Prop
  | refl (v : Option String) : Alike key v v
  | blank {v : String} (h : isBlank v = true) : Alike key none (some v)
  | padded {a v b : String} (hkey : key ∈ secondsKeys) (ha : isBlank a = true)
      (hb : isBlank b = true) :
      Alike key (some v) (some (a ++ v ++ b))

variable {lookup lookup' : String → Option String} {key v : String} {default d : Duration}

section Variables

theorem value?_of_none (h : lookup key = none) :
    value? lookup key = none := by rw [value?, h, Option.filter_none]

theorem value?_of_blank (h : lookup key = some v) (hv : isBlank v = true) :
    value? lookup key = none := by
  rw [value?, h, Option.filter_some_neg (by simp [hv])]

theorem value?_of_not_blank (h : lookup key = some v) (hv : isBlank v = false) :
    value? lookup key = some v := by
  rw [value?, h, Option.filter_some_pos (by simp [hv])]

theorem seconds_of_no_value (h : value? lookup key = none) :
    seconds lookup key default = .ok default := by
  simp only [seconds, h]

theorem seconds_of_value (h : value? lookup key = some v) : seconds lookup key default =
    ((Text.readUnsigned UInt64.size (trim v)).map Duration.ofSeconds).mapError
      (.notSeconds key) := by
  simp only [seconds, h]
  cases Text.readUnsigned UInt64.size (trim v) with
  | ok n => rfl
  | error fault => rfl

theorem setsSeconds_none : SetsSeconds default none d ↔ d = default := by
  constructor
  · intro h
    cases h
    rfl
  · rintro rfl
    exact .unset

theorem setsSeconds_of_blank (hv : isBlank v = true) :
    SetsSeconds default (some v) d ↔ d = default := by
  constructor
  · intro h
    cases h with
    | blank => rfl
    | numeral ha hb h _ =>
      rw [Text.isBlank_pad ha hb, h.isBlank_eq_false] at hv
      cases hv
  · rintro rfl
    exact .blank hv

theorem setsSeconds_of_not_blank (hv : isBlank v = false) : SetsSeconds default (some v) d ↔
    ∃ n, Text.readUnsigned UInt64.size (trim v) = .ok n ∧ d = .ofSeconds n := by
  constructor
  · intro h
    cases h with
    | blank h => exact absurd h (by simp [hv])
    | @numeral a s b n ha hb h hn =>
      refine ⟨n, ?_, rfl⟩
      rw [Text.trim_pad ha hb, h.trim_eq]
      exact (Text.readUnsigned_eq_ok_iff (by decide)).mpr ⟨h, hn⟩
  · rintro ⟨n, hread, rfl⟩
    obtain ⟨hwrites, hn⟩ := (Text.readUnsigned_eq_ok_iff (by decide)).mp hread
    obtain ⟨a, b, ha, hb, hpad⟩ := Text.exists_eq_pad_trim v
    rw [hpad]
    exact .numeral ha hb hwrites hn

/-- What a variable for seconds must hold. -/
theorem seconds_eq_ok_iff :
    seconds lookup key default = .ok d ↔ SetsSeconds default (lookup key) d := by
  cases hv : lookup key with
  | none =>
    rw [seconds_of_no_value (value?_of_none hv), setsSeconds_none, Except.ok.injEq, eq_comm]
  | some v =>
    cases hblank : isBlank v with
    | true =>
      rw [seconds_of_no_value (value?_of_blank hv hblank), setsSeconds_of_blank hblank,
        Except.ok.injEq, eq_comm]
    | false =>
      rw [seconds_of_value (value?_of_not_blank hv hblank), setsSeconds_of_not_blank hblank]
      cases Text.readUnsigned UInt64.size (trim v) with
      | ok n => simp [Except.map, Except.mapError, eq_comm]
      | error fault => simp [Except.map, Except.mapError]

theorem Alike.value?_eq (h : Alike key (lookup key) (lookup' key)) (hkey : key ∉ secondsKeys) :
    value? lookup' key = value? lookup key := by
  generalize hv : lookup key = v at h
  generalize hv' : lookup' key = v' at h
  cases h with
  | refl => rw [value?, value?, hv, hv']
  | blank h => rw [value?_of_blank hv' h, value?_of_none hv]
  | padded h => exact absurd h hkey

theorem Alike.seconds_eq (h : Alike key (lookup key) (lookup' key)) (default : Duration) :
    seconds lookup' key default = seconds lookup key default := by
  generalize hv : lookup key = v at h
  generalize hv' : lookup' key = v' at h
  cases h with
  | refl => rw [seconds, seconds, value?, value?, hv, hv']
  | blank h =>
    rw [seconds_of_no_value (value?_of_blank hv' h), seconds_of_no_value (value?_of_none hv)]
  | @padded a v b _ ha hb =>
    cases hblank : isBlank v with
    | true =>
      have hblank' : isBlank (a ++ v ++ b) = true := (Text.isBlank_pad ha hb).trans hblank
      rw [seconds_of_no_value (value?_of_blank hv' hblank'),
        seconds_of_no_value (value?_of_blank hv hblank)]
    | false =>
      have hblank' : isBlank (a ++ v ++ b) = false := (Text.isBlank_pad ha hb).trans hblank
      rw [seconds_of_value (value?_of_not_blank hv' hblank'),
        seconds_of_value (value?_of_not_blank hv hblank),
        Text.trim_pad ha hb]

end Variables

section Loading

/-- The settings, where the variables for seconds set these times. -/
def settings (lookup : String → Option String) (interval timeout httpTimeout : Duration) :
    Config where
  endpoint := ((value? lookup endpointKey).map (Text.trimEnd '/')).getD defaultEndpoint
  accessToken := value? lookup tokenKey
  defaultProject := value? lookup projectKey
  pollInterval := interval
  operationTimeout := timeout
  secretsDir := (value? lookup secretsKey).getD "/var/run/secrets/capg"
  httpTimeout := httpTimeout
  logLevel := (value? lookup logLevelKey).getD "info"

/-- The variables for seconds decide whether there are settings, and nothing else does. -/
theorem load_eq_ok_iff {c : Config} :
    load lookup = .ok c ↔ ∃ interval timeout httpTimeout,
      seconds lookup intervalKey defaultPollInterval = .ok interval ∧
      seconds lookup timeoutKey defaultPollTimeout = .ok timeout ∧ interval.nanos ≠ 0 ∧
      seconds lookup httpTimeoutKey (.ofSeconds 30) = .ok httpTimeout ∧
      settings lookup interval timeout httpTimeout = c := by
  unfold load
  cases seconds lookup intervalKey defaultPollInterval with
  | error e => exact ⟨nofun, fun ⟨_, _, _, h, _⟩ => nomatch h⟩
  | ok interval =>
    cases seconds lookup timeoutKey defaultPollTimeout with
    | error e => exact ⟨nofun, fun ⟨_, _, _, _, h, _⟩ => nomatch h⟩
    | ok timeout =>
      by_cases hzero : interval.nanos = 0
      · simp [bind, Except.bind, hzero, throw, throwThe, MonadExceptOf.throw]
      · cases seconds lookup httpTimeoutKey (.ofSeconds 30) with
        | error e => simp [bind, Except.bind, hzero]
        | ok httpTimeout => simp [bind, Except.bind, pure, Except.pure, hzero, settings]

theorem load_congr (h : ∀ key ∈ keys, Alike key (lookup key) (lookup' key)) :
    load lookup' = load lookup := by
  have hvalue : ∀ key ∈ keys, key ∉ secondsKeys → value? lookup' key = value? lookup key :=
    fun key hkey => (h key hkey).value?_eq
  have hseconds :
      ∀ key ∈ keys, ∀ default, seconds lookup' key default = seconds lookup key default :=
    fun key hkey => (h key hkey).seconds_eq
  unfold load
  rw [hseconds intervalKey (by decide), hseconds timeoutKey (by decide),
    hseconds httpTimeoutKey (by decide),
    hvalue endpointKey (by decide) (by decide), hvalue tokenKey (by decide) (by decide),
    hvalue projectKey (by decide) (by decide), hvalue secretsKey (by decide) (by decide),
    hvalue logLevelKey (by decide) (by decide)]

/-- Settings are made exactly when each variable for seconds is not set, is blank or holds a numeral
below 2⁶⁴ with blanks around it at will, and the interval is not zero. They have the times that
these variables set. And neither blanks nor any other variable make a difference. -/
theorem settings_decided (lookup : String → Option String) :
    ((∃ c, load lookup = .ok c) ↔ ∃ interval timeout httpTimeout,
      SetsSeconds (.ofSeconds 5) (lookup intervalKey) interval ∧ interval ≠ .ofSeconds 0 ∧
      SetsSeconds (.ofSeconds 180) (lookup timeoutKey) timeout ∧
      SetsSeconds (.ofSeconds 30) (lookup httpTimeoutKey) httpTimeout) ∧
    (∀ c, load lookup = .ok c → ∀ d,
      (SetsSeconds (.ofSeconds 5) (lookup intervalKey) d ↔ d = c.pollInterval) ∧
      (SetsSeconds (.ofSeconds 180) (lookup timeoutKey) d ↔ d = c.operationTimeout) ∧
      (SetsSeconds (.ofSeconds 30) (lookup httpTimeoutKey) d ↔ d = c.httpTimeout)) ∧
    ∀ lookup', (∀ key ∈ keys, Alike key (lookup key) (lookup' key)) →
      load lookup' = load lookup := by
  simp only [load_eq_ok_iff, ← seconds_eq_ok_iff]
  refine ⟨⟨?_, ?_⟩, ?_, fun _ => load_congr⟩
  · rintro ⟨c, interval, timeout, httpTimeout, hinterval, htimeout, hpositive, hhttp, -⟩
    exact ⟨interval, timeout, httpTimeout, hinterval,
      fun he => hpositive (congrArg Duration.nanos he), htimeout, hhttp⟩
  · rintro ⟨interval, timeout, httpTimeout, hinterval, hpositive, htimeout, hhttp⟩
    have hnanos : interval.nanos ≠ 0 := fun he => hpositive (congrArg Duration.mk he)
    exact ⟨_, interval, timeout, httpTimeout, hinterval, htimeout, hnanos, hhttp, rfl⟩
  · rintro c ⟨interval, timeout, httpTimeout, hinterval, htimeout, -, hhttp, rfl⟩ d
    change (seconds lookup intervalKey defaultPollInterval = .ok d ↔ d = interval) ∧
      (seconds lookup timeoutKey defaultPollTimeout = .ok d ↔ d = timeout) ∧
      (seconds lookup httpTimeoutKey (.ofSeconds 30) = .ok d ↔ d = httpTimeout)
    rw [hinterval, htimeout, hhttp]
    simp only [Except.ok.injEq, eq_comm, and_self]

/-- An interval of seven seconds, with and without blanks around it, with a blank project and none,
and with a variable that sets nothing. -/
theorem settings_decided_padded :
    let lookup := fun key => if key = intervalKey then some "+007" else none
    let lookup' := fun key =>
      if key = intervalKey then some "\t+007\u3000" else if key = projectKey then some "\u00a0"
      else if key = "PATH" then some "/bin" else none
    (∃ c, load lookup = .ok c ∧ SetsSeconds (.ofSeconds 5) (lookup intervalKey) (.ofSeconds 7) ∧
      c.pollInterval = .ofSeconds 7) ∧
    (∀ key ∈ keys, Alike key (lookup key) (lookup' key)) ∧ load lookup' = load lookup := by
  intro lookup lookup'
  obtain ⟨hload, htimes, hsame⟩ := settings_decided lookup
  have hblank : isBlank "" = true ∧ isBlank "\t" = true ∧ isBlank "\u3000" = true ∧
      isBlank "\u00a0" = true := by
    decide
  have hdigits : Json.Digits ['0', '0', '7'] := ⟨by simp, by simp [Char.isDigit]⟩
  have hinterval : SetsSeconds (.ofSeconds 5) (lookup intervalKey) (.ofSeconds 7) :=
    .numeral (a := "") (s := "+007") (b := "") hblank.1 hblank.1 (.plus hdigits) (by decide)
  have halike : ∀ key ∈ keys, Alike key (lookup key) (lookup' key) := by
    simp only [keys, List.forall_mem_cons]
    exact ⟨.refl none, .refl none, .blank hblank.2.2.2,
      .padded (by decide) hblank.2.1 hblank.2.2.1, .refl none,
      .refl none, .refl none, .refl none, List.forall_mem_nil _⟩
  obtain ⟨c, hc⟩ := hload.mpr ⟨_, _, _, hinterval, by decide, .unset, .unset⟩
  exact ⟨⟨c, hc, hinterval, ((htimes c hc _).1.mp hinterval).symm⟩, halike, hsame lookup' halike⟩

end Loading

end Config

end Provision
