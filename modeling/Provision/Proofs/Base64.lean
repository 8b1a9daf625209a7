import Provision.Base64

/-!
Base 64 read back. What is encoded decodes to the bytes it was, however many there are.
-/
namespace Provision.Base64

theorem value?_letter : ∀ n < 64, value? (letter n) = some n := by decide +kernel

theorem value?_sextet (n i : Nat) : value? (sextet n i) = some (n / Nat.pow 64 (3 - i) % 64) :=
  value?_letter _ (Nat.mod_lt _ (by decide))

/-- The padding has no value. -/
theorem ne_pad_of_value? {c : Char} {n : Nat} (h : value? c = some n) : c ≠ '=' := by
  rintro rfl
  cases h

section Groups

variable {p q r s : Char} {i j k l : Nat}

theorem decodeChars_one (hp : value? p = some i) (hq : value? q = some j) :
    decodeChars [p, q, '=', '='] = some [UInt8.ofNat ((i * 64 + j) / 16)] := by
  simp only [decodeChars, hp, hq, Option.bind_eq_bind, Option.bind_some, Option.pure_def]

theorem decodeChars_two (hp : value? p = some i) (hq : value? q = some j) (hr : value? r = some k) :
    decodeChars [p, q, r, '='] =
      some [UInt8.ofNat (((i * 64 + j) * 64 + k) / 1024),
        UInt8.ofNat (((i * 64 + j) * 64 + k) / 4)] := by
  rw [decodeChars]
  · simp only [hp, hq, hr, Option.bind_eq_bind, Option.bind_some, Option.pure_def]
  · exact ne_pad_of_value? hr

theorem decodeChars_three (hp : value? p = some i) (hq : value? q = some j) (hr : value? r = some k)
    (hs : value? s = some l) {n : Nat} (hn : ((i * 64 + j) * 64 + k) * 64 + l = n)
    (rest : List Char) :
    decodeChars (p :: q :: r :: s :: rest) = (decodeChars rest).map fun bs =>
      UInt8.ofNat (n / 65536) :: UInt8.ofNat (n / 256) :: UInt8.ofNat n :: bs := by
  have hpad : s ≠ '=' := ne_pad_of_value? hs
  subst hn
  rw [decodeChars]
  · simp only [hp, hq, hr, hs, Option.bind_eq_bind, Option.bind_some, Option.pure_def]
    cases decodeChars rest <;> rfl
  · rintro rfl
    exact fun h _ => hpad h
  · exact fun h _ => hpad h

end Groups

/-- A byte is its number, whatever is above it. -/
theorem ofNat_eq_of_mod {a : UInt8} {n : Nat} (h : n % 256 = a.toNat) : UInt8.ofNat n = a := by
  rw [← UInt8.toNat_inj, UInt8.toNat_ofNat']
  exact h

theorem decodeChars_encodeChars (bs : Bytes) : decodeChars (encodeChars bs) = some bs := by
  -- A group of three bytes at a time, as they are encoded; the last two cases are padded.
  induction bs using encodeChars.induct with
  | case1 => rfl
  | case2 a =>
    have ha := a.toNat_lt
    rw [encodeChars, decodeChars_one (value?_sextet ..) (value?_sextet ..),
      ofNat_eq_of_mod (a := a)]
    simp only [Nat.pow_eq]
    omega
  | case3 a b =>
    have ha := a.toNat_lt
    have hb := b.toNat_lt
    rw [encodeChars, decodeChars_two (value?_sextet ..) (value?_sextet ..) (value?_sextet ..),
      ofNat_eq_of_mod (a := a), ofNat_eq_of_mod (a := b)]
    all_goals
      simp only [Nat.pow_eq]
      omega
  | case4 a b c rest ih =>
    have ha := a.toNat_lt
    have hb := b.toNat_lt
    have hc := c.toNat_lt
    rw [encodeChars,
      decodeChars_three (value?_sextet ..) (value?_sextet ..) (value?_sextet ..)
        (value?_sextet ..) (n := a.toNat * 65536 + b.toNat * 256 + c.toNat),
      ih, Option.map_some, ofNat_eq_of_mod (a := a), ofNat_eq_of_mod (a := b),
      ofNat_eq_of_mod (a := c)]
    · omega
    · omega
    · omega
    · simp only [Nat.pow_eq]
      omega

theorem decode_encode (bs : Bytes) : decode (encode bs) = some bs := by
  unfold decode encode
  rw [String.toList_ofList]
  exact decodeChars_encodeChars bs

end Provision.Base64
