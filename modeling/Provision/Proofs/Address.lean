import Mathlib.Data.List.Basic
import Mathlib.Data.List.TakeWhile
import Provision.Http.Url

/-!
Addresses that end in plain segments. Reading one keeps these segments as they are, so that of two
with the same beginning no request can be for both unless they are the same text.
-/
namespace Provision.Http.Url

/-- A character that stands for itself in a path, and does not part segments. -/
def isPlain (c : Char) : Bool := !isSlash c && c ≠ '%' && !isPathUnsafe c

/-- A segment that a path keeps as it is. -/
def isKept (seg : List Char) : Bool := seg.all isPlain && seg ≠ ['.'] && seg ≠ ['.', '.']

section Segments

variable {c : Char} {seg : List Char} {segs : List (List Char)}

theorem isSlash_of_isPlain (h : isPlain c = true) : isSlash c = false := by
  simp only [isPlain, Bool.and_eq_true, Bool.not_eq_true'] at h
  exact h.1.1

theorem isPathUnsafe_of_isPlain (h : isPlain c = true) : isPathUnsafe c = false := by
  simp only [isPlain, Bool.and_eq_true, Bool.not_eq_true'] at h
  exact h.2

theorem isKept_iff :
    isKept seg = true ↔ (∀ c ∈ seg, isPlain c = true) ∧ seg ≠ ['.'] ∧ seg ≠ ['.', '.'] := by
  simp only [isKept, Bool.and_eq_true, List.all_eq_true, decide_eq_true_eq, and_assoc]

theorem encode_of_isKept (h : isKept seg = true) : encode isPathUnsafe seg = seg := by
  have hplain := (isKept_iff.mp h).1
  clear h
  induction seg with
  | nil => rfl
  | cons c cs ih =>
    obtain ⟨hc, hcs⟩ := List.forall_mem_cons.mp hplain
    change (if isPathUnsafe c then percentEncode c else [c]) ++ encode isPathUnsafe cs = c :: cs
    rw [isPathUnsafe_of_isPlain hc, ih hcs]
    rfl

/-- Without a percent sign only a dot stays. -/
theorem isStay_eq (h : '%' ∉ seg) : isStay seg = decide (seg = ['.']) := by
  have he : seg ≠ ['%', '2', 'e'] := by
    rintro rfl
    exact h (List.mem_cons_self ..)
  have hE : seg ≠ ['%', '2', 'E'] := by
    rintro rfl
    exact h (List.mem_cons_self ..)
  simp only [isStay, he, hE, decide_false, Bool.or_false]

theorem percent_notMem (h : isKept seg = true) : '%' ∉ seg := by
  intro hmem
  have hplain := (isKept_iff.mp h).1 _ hmem
  cases hplain

theorem isStay_of_isKept (h : isKept seg = true) : isStay seg = false := by
  rw [isStay_eq (percent_notMem h)]
  exact decide_eq_false (isKept_iff.mp h).2.1

theorem isUp_of_isKept (h : isKept seg = true) : isUp seg = false := by
  have hp := percent_notMem h
  unfold isUp
  split
  next rest =>
    rw [isStay_eq (fun hmem => hp (List.mem_cons_of_mem _ hmem))]
    refine decide_eq_false fun he => ?_
    rw [he] at h
    cases h
  next => exact absurd (List.mem_cons_self ..) hp
  next => exact absurd (List.mem_cons_self ..) hp
  next => rfl

theorem segments_ne_nil (cs : List Char) : segments cs ≠ [] := by
  cases cs with
  | nil => exact List.cons_ne_nil _ _
  | cons c cs =>
    unfold segments
    split
    · exact List.cons_ne_nil _ _
    · cases segments cs <;> exact List.cons_ne_nil _ _

theorem segments_append {s : Char} (hs : isSlash s = true) (cs ds : List Char) :
    segments (cs ++ s :: ds) = segments cs ++ segments ds := by
  have hslash : ∀ c, (c = '/' ∨ c = '\\') ↔ isSlash c = true := by
    intro c
    simp only [isSlash, Bool.or_eq_true, decide_eq_true_eq]
  induction cs with
  | nil => simp only [List.nil_append, segments, hslash, hs, if_true, List.cons_append]
  | cons c cs ih =>
    rw [List.cons_append, segments, segments, ih]
    split
    · rfl
    · cases hcs : segments cs with
      | nil => exact absurd hcs (segments_ne_nil cs)
      | cons x xs => rfl

theorem segments_of_isKept (h : isKept seg = true) : segments seg = [seg] := by
  have hplain := (isKept_iff.mp h).1
  clear h
  induction seg with
  | nil => rfl
  | cons c cs ih =>
    obtain ⟨hc, hcs⟩ := List.forall_mem_cons.mp hplain
    have hslash : ¬(c = '/' ∨ c = '\\') := by
      simpa only [isSlash, Bool.or_eq_false_iff, decide_eq_false_iff_not, not_or] using
        isSlash_of_isPlain hc
    rw [segments, if_neg hslash, ih hcs]

/-- What the segments before others leave of `done`. -/
def walk (done : List (List Char)) (seg : List Char) : List (List Char) :=
  if isUp seg then leave done else if isStay seg then done else seg :: done

theorem normalize_append (done before : List (List Char)) (hne : segs ≠ []) :
    normalize done (before ++ segs) = normalize (before.foldl walk done) segs := by
  induction before generalizing done with
  | nil => rfl
  | cons x xs ih =>
    rw [List.foldl_cons, ← ih, List.cons_append, normalize]
    · unfold walk
      split
      · rfl
      · split <;> rfl
    · simp only [List.append_eq_nil_iff, hne, and_false, false_implies]

theorem normalize_of_isKept (done : List (List Char)) (h : ∀ seg ∈ segs, isKept seg = true) :
    normalize done segs = done.reverse ++ segs := by
  induction segs generalizing done with
  | nil => simp [normalize]
  | cons x xs ih =>
    obtain ⟨hx, hxs⟩ := List.forall_mem_cons.mp h
    have hstep : normalize done (x :: xs) = normalize (x :: done) xs := by
      cases xs with
      | nil => simp only [normalize, isUp_of_isKept hx, isStay_of_isKept hx]; rfl
      | cons y ys => simp only [normalize, isUp_of_isKept hx, isStay_of_isKept hx]; rfl
    rw [hstep, ih _ hxs, List.reverse_cons, List.append_assoc]
    rfl

/-- The segments with a slash before each. -/
def joined (segs : List (List Char)) : List Char := segs.flatMap ('/' :: ·)

theorem mem_joined (h : ∀ seg ∈ segs, isKept seg = true) (hc : c ∈ joined segs) :
    c = '/' ∨ isPlain c = true := by
  obtain ⟨seg, hseg, hc⟩ := List.mem_flatMap.mp hc
  obtain rfl | hc := List.mem_cons.mp hc
  · exact .inl rfl
  · exact .inr ((isKept_iff.mp (h seg hseg)).1 c hc)

/-- No character of kept segments has a meaning of its own for the address. -/
theorem ne_of_mem_joined (h : ∀ seg ∈ segs, isKept seg = true) (hc : c ∈ joined segs)
    {d : Char} (hd : d ≠ '/') (hplain : isPlain d = false) : c ≠ d := by
  rintro rfl
  obtain rfl | hc := mem_joined h hc
  · exact hd rfl
  · rw [hplain] at hc
    cases hc

theorem segments_append_joined (cs : List Char) (h : ∀ seg ∈ segs, isKept seg = true) :
    segments (cs ++ joined segs) = segments cs ++ segs := by
  induction segs generalizing cs with
  | nil => simp [joined]
  | cons x xs ih =>
    obtain ⟨hx, hxs⟩ := List.forall_mem_cons.mp h
    have hjoined : joined (x :: xs) = '/' :: (x ++ joined xs) := rfl
    rw [hjoined, segments_append rfl, ih x hxs, segments_of_isKept hx]
    rfl

/-- What is left of a path that goes on with other segments. -/
def lead : List Char → List Char
  | [] => []
  | _ :: cs => ((segments cs).foldl walk []).reverse.flatMap fun s => '/' :: encode isPathUnsafe s

theorem flatMap_encode (h : ∀ seg ∈ segs, isKept seg = true) :
    (segs.flatMap fun s => '/' :: encode isPathUnsafe s) = joined segs :=
  List.flatMap_congr fun seg hseg => congrArg ('/' :: ·) (encode_of_isKept (h seg hseg))

theorem pathOf_append_joined {cs : List Char} (hcs : ∀ c ∈ cs.head?, isSlash c = true)
    (hne : segs ≠ []) (h : ∀ seg ∈ segs, isKept seg = true) :
    pathOf (cs ++ joined segs) = String.ofList (lead cs ++ joined segs) := by
  unfold pathOf
  refine congrArg String.ofList ?_
  cases cs with
  | nil =>
    obtain ⟨x, xs, rfl⟩ := List.exists_cons_of_ne_nil hne
    obtain ⟨hx, hxs⟩ := List.forall_mem_cons.mp h
    change (normalize [] (segments (x ++ joined xs))).flatMap _ = joined (x :: xs)
    rw [segments_append_joined x hxs, segments_of_isKept hx, List.singleton_append,
      normalize_of_isKept [] h]
    exact flatMap_encode h
  | cons c cs =>
    have hc : isSlash c = true := hcs c rfl
    simp only [List.cons_append, List.head?_cons, Option.any_some, hc, if_true,
      List.drop_succ_cons, List.drop_zero]
    rw [segments_append_joined cs h, normalize_append _ _ hne, normalize_of_isKept _ h,
      List.flatMap_append,
      flatMap_encode h]
    rfl

end Segments

section Reading

variable {p : Char → Bool} {cs ds : List Char} {segs : List (List Char)}

theorem takeWhile_append_of_head (h : ∀ d ∈ ds.head?, p d = false) :
    (cs ++ ds).takeWhile p = cs.takeWhile p := by
  induction cs with
  | nil =>
    cases ds with
    | nil => rfl
    | cons d ds => exact List.takeWhile_cons_of_neg (Bool.eq_false_iff.mp (h d rfl))
  | cons c cs ih => simp only [List.cons_append, List.takeWhile_cons, ih]

theorem dropWhile_append_of_head (h : ∀ d ∈ ds.head?, p d = false) :
    (cs ++ ds).dropWhile p = cs.dropWhile p ++ ds := by
  induction cs with
  | nil =>
    cases ds with
    | nil => rfl
    | cons d ds => exact List.dropWhile_cons_of_neg (Bool.eq_false_iff.mp (h d rfl))
  | cons c cs ih =>
    simp only [List.cons_append, List.dropWhile_cons, ih]
    split <;> rfl

/-- An address is read without tabs and line ends. -/
def stripped (cs : List Char) : List Char := cs.filter fun c => c ≠ '\t' && c ≠ '\n' && c ≠ '\r'

def isEdge (c : Char) : Bool := c.toNat ≤ 0x20

/-- Nor are the blanks around it read. -/
def trimmed (cs : List Char) : List Char :=
  (((stripped cs).dropWhile isEdge).reverse.dropWhile isEdge).reverse

def endsAuthority (c : Char) : Bool := isSlash c || c = '?' || c = '#'

/-- The address of a scheme and what follows it. -/
def located? (scheme : String) (cs : List Char) : Option Url :=
  let authority := cs.takeWhile fun c => !endsAuthority c
  let rest := (cs.dropWhile fun c => !endsAuthority c).takeWhile (· ≠ '#')
  if authority.isEmpty || !authority.all isAuthorityChar then none
  else
    let query :=
      match rest.dropWhile (· ≠ '?') with
      | [] => none
      | _ :: q => some (String.ofList (encode isQueryUnsafe q))
    some ⟨scheme, String.ofList authority, pathOf (rest.takeWhile (· ≠ '?')), query⟩

theorem parse?_eq (s : String) :
    parse? s = (splitScheme (trimmed s.toList)).bind fun x => located? x.1 x.2 := rfl

/-- The authority and the path, as written one after the other. -/
def place (u : Url) : List Char := u.authority.toList ++ u.path.toList

theorem takeWhile_ne_append_joined (h : ∀ seg ∈ segs, isKept seg = true) {d : Char} (hd : d ∉ cs)
    (hslash : d ≠ '/') (hplain : isPlain d = false) :
    (cs ++ joined segs).takeWhile (· ≠ d) = cs ++ joined segs := by
  refine List.takeWhile_eq_self_iff.mpr fun c hc => decide_eq_true ?_
  obtain hc | hc := List.mem_append.mp hc
  · rintro rfl
    exact hd hc
  · exact ne_of_mem_joined h hc hslash hplain

theorem place_of_located? {scheme : String} {u : Url} (hq : '?' ∉ cs)
    (hf : '#' ∉ cs) (hne : segs ≠ []) (h : ∀ seg ∈ segs, isKept seg = true)
    (hu : located? scheme (cs ++ joined segs) = some u) :
    u.place = cs.takeWhile (!endsAuthority ·) ++ lead (cs.dropWhile (!endsAuthority ·)) ++
      joined segs := by
  have hhead : ∀ d ∈ (joined segs).head?, (!endsAuthority d) = false := by
    obtain ⟨x, xs, rfl⟩ := List.exists_cons_of_ne_nil hne
    rintro d ⟨⟩
    rfl
  have hsub : cs.dropWhile (!endsAuthority ·) ⊆ cs := (List.dropWhile_sublist _).subset
  have hfragment := takeWhile_ne_append_joined h (fun hd => hf (hsub hd)) (by decide) (by decide)
  have hquery := takeWhile_ne_append_joined h (fun hd => hq (hsub hd)) (by decide) (by decide)
  have hslash : ∀ c ∈ (cs.dropWhile (!endsAuthority ·)).head?, isSlash c = true := by
    intro c hc
    have hends := List.head?_dropWhile_not (!endsAuthority ·) cs
    rw [hc] at hends
    have hmem : c ∈ cs := hsub (List.mem_of_head? hc)
    have hc1 : c ≠ '?' := fun he => hq (he ▸ hmem)
    have hc2 : c ≠ '#' := fun he => hf (he ▸ hmem)
    simpa only [endsAuthority, hc1, hc2, decide_false, Bool.or_false, Bool.not_eq_eq_eq_not,
      Bool.not_false] using hends
  unfold located? at hu
  rw [takeWhile_append_of_head hhead, dropWhile_append_of_head hhead] at hu
  simp only [hfragment, hquery] at hu
  split at hu
  · cases hu
  · cases hu
    rw [pathOf_append_joined hslash hne h]
    simp only [place, String.toList_ofList, List.append_assoc]

theorem head_joined (hne : segs ≠ []) : ∃ ds, joined segs = '/' :: ds := by
  obtain ⟨x, xs, rfl⟩ := List.exists_cons_of_ne_nil hne
  exact ⟨_, rfl⟩

theorem isEdge_of_mem_joined (h : ∀ seg ∈ segs, isKept seg = true) {c : Char}
    (hc : c ∈ joined segs) :
    isEdge c = false := by
  obtain rfl | hc := mem_joined h hc
  · rfl
  · have hsafe := isPathUnsafe_of_isPlain hc
    simp only [isPathUnsafe, Bool.or_eq_false_iff] at hsafe
    exact hsafe.1.1

theorem stripped_joined (h : ∀ seg ∈ segs, isKept seg = true) :
    stripped (joined segs) = joined segs := by
  refine List.filter_eq_self.mpr fun c hc => ?_
  have hne : ∀ d, isEdge d = true → c ≠ d := by
    rintro d hd rfl
    rw [isEdge_of_mem_joined h hc] at hd
    cases hd
  simp only [hne '\t' rfl, hne '\n' rfl, hne '\r' rfl, ne_eq, not_false_eq_true,
    decide_true, Bool.and_self]

theorem trimmed_append_joined (hne : segs ≠ []) (h : ∀ seg ∈ segs, isKept seg = true) :
    trimmed (cs ++ joined segs) = (stripped cs).dropWhile isEdge ++ joined segs := by
  have hstripped : stripped (cs ++ joined segs) = stripped cs ++ joined segs := by
    unfold stripped
    rw [List.filter_append]
    exact congrArg _ (stripped_joined h)
  have hlast :
      ∀ xs, ((joined segs).reverse ++ xs).dropWhile isEdge = (joined segs).reverse ++ xs := by
    obtain ⟨ds, hds⟩ := head_joined hne
    have hreverse : (joined segs).reverse ≠ [] :=
      List.reverse_ne_nil_iff.mpr (hds ▸ List.cons_ne_nil _ _)
    obtain ⟨c, cs', hc⟩ := List.exists_cons_of_ne_nil hreverse
    have hmem : c ∈ joined segs := List.mem_reverse.mp (hc ▸ List.mem_cons_self ..)
    intro xs
    rw [hc]
    exact List.dropWhile_cons_of_neg (Bool.eq_false_iff.mp (isEdge_of_mem_joined h hmem))
  unfold trimmed
  rw [hstripped, dropWhile_append_of_head fun c hc => isEdge_of_mem_joined h (List.mem_of_head? hc),
    List.reverse_append,
    hlast, List.reverse_append, List.reverse_reverse, List.reverse_reverse]

/-- A scheme has no slash, and what follows it is read without the slashes there. -/
theorem splitScheme_eq_some {scheme : String} {rest : List Char}
    (h : splitScheme cs = some (scheme, rest)) :
    '/' ∉ cs.takeWhile (· ≠ ':') ∧ rest = ((cs.dropWhile (· ≠ ':')).drop 1).dropWhile isSlash := by
  unfold splitScheme at h
  dsimp only at h
  split at h
  next hname =>
    constructor
    · intro hmem
      have hlower := List.mem_map_of_mem (f := Char.toLower) hmem
      obtain hname | hname := hname
      · rw [← String.toList_ofList (l := List.map _ _), hname] at hlower
        revert hlower
        decide
      · rw [← String.toList_ofList (l := List.map _ _), hname] at hlower
        revert hlower
        decide
    · split at h
      next hdrop =>
        split at h
        · cases h
          rw [hdrop]
          rfl
        · cases h
      next => cases h
  next => cases h

theorem rest_of_splitScheme {scheme : String} {rest : List Char} (hne : segs ≠ [])
    (hs : splitScheme (cs ++ joined segs) = some (scheme, rest)) :
    rest = ((cs.dropWhile (· ≠ ':')).drop 1 ++ joined segs).dropWhile isSlash := by
  obtain ⟨hslash, rfl⟩ := splitScheme_eq_some hs
  obtain ⟨ds, hds⟩ := head_joined hne
  -- Else the scheme would reach into the segments, over a slash.
  have hcolon : ':' ∈ cs := by
    by_contra hcolon
    refine hslash ?_
    have hall : ∀ c ∈ cs, decide (c ≠ ':') = true := by
      intro c hc
      refine decide_eq_true ?_
      rintro rfl
      exact hcolon hc
    rw [List.takeWhile_append_of_pos hall, hds]
    exact List.mem_append_right _ (List.mem_cons_self ..)
  have hdrop : cs.dropWhile (· ≠ ':') ≠ [] := by
    intro hnil
    have hall := List.dropWhile_eq_nil_iff.mp hnil ':' hcolon
    cases hall
  obtain ⟨d, r, hr⟩ := List.exists_cons_of_ne_nil hdrop
  rw [List.dropWhile_append, hr]
  rfl

/-- What is left of the beginning of an address once its scheme is read. -/
def begun (cs : List Char) : List Char :=
  ((((stripped cs).dropWhile isEdge).dropWhile (· ≠ ':')).drop 1).dropWhile isSlash

theorem begun_subset (cs : List Char) : begun cs ⊆ cs := by
  have hscheme : (begun cs).Sublist ((stripped cs).dropWhile isEdge) :=
    (List.dropWhile_sublist _).trans ((List.drop_sublist ..).trans (List.dropWhile_sublist _))
  exact (hscheme.trans ((List.dropWhile_sublist _).trans List.filter_sublist)).subset

/-- The place of an address whose beginning leaves these characters. -/
def front (cs : List Char) : List Char :=
  cs.takeWhile (!endsAuthority ·) ++ lead (cs.dropWhile (!endsAuthority ·))

theorem notMem_of_isKept {seg : List Char} (h : isKept seg = true) {c : Char}
    (hc : isPlain c = false) : c ∉ seg := by
  intro hmem
  rw [(isKept_iff.mp h).1 c hmem] at hc
  cases hc

theorem front_of_isKept {seg : List Char} (h : isKept seg = true) : front seg = seg := by
  have hends : ∀ c ∈ seg, (!endsAuthority c) = true := by
    intro c hc
    have hq : c ≠ '?' := fun he => notMem_of_isKept h (by decide) (he ▸ hc)
    have hf : c ≠ '#' := fun he => notMem_of_isKept h (by decide) (he ▸ hc)
    simp only [endsAuthority, isSlash_of_isPlain ((isKept_iff.mp h).1 c hc), hq, hf,
      decide_false, Bool.or_self,
      Bool.not_false]
  rw [front, List.takeWhile_eq_self_iff.mpr hends, List.dropWhile_eq_nil_iff.mpr hends]
  exact List.append_nil seg

/-- Where an address leads that ends in kept segments. When nothing is left of its beginning, the
first of them is the authority. -/
theorem place_of_parse? {s : String} {u : Url} {seg : List Char}
    (hs : s.toList = cs ++ joined (seg :: segs)) (hq : '?' ∉ cs) (hf : '#' ∉ cs) (hseg : seg ≠ [])
    (hne : segs ≠ []) (h : ∀ x ∈ seg :: segs, isKept x = true) (hu : parse? s = some u) :
    u.place =
      if begun cs = [] then seg ++ joined segs else front (begun cs) ++ joined (seg :: segs) := by
  have hall : (seg :: segs) ≠ [] := List.cons_ne_nil _ _
  obtain ⟨hkept, hrest⟩ := List.forall_mem_cons.mp h
  rw [parse?_eq, hs, trimmed_append_joined hall h] at hu
  obtain ⟨⟨scheme, rest⟩, hsplit, hlocated⟩ := Option.bind_eq_some_iff.mp hu
  have hr := rest_of_splitScheme hall hsplit
  rw [List.dropWhile_append] at hr
  change rest = if (begun cs).isEmpty then _ else begun cs ++ _ at hr
  split
  next hnil =>
    -- The slash before the first segment goes with those after the scheme.
    obtain ⟨c, seg', rfl⟩ := List.exists_cons_of_ne_nil hseg
    have hc : isSlash c = false :=
      isSlash_of_isPlain ((isKept_iff.mp hkept).1 c (List.mem_cons_self ..))
    have hdrop : (joined ((c :: seg') :: segs)).dropWhile isSlash = c :: seg' ++ joined segs := by
      change ('/' :: c :: (seg' ++ joined segs)).dropWhile isSlash = _
      rw [List.dropWhile_cons_of_pos rfl, List.dropWhile_cons_of_neg (Bool.eq_false_iff.mp hc)]
      rfl
    rw [hnil, List.isEmpty_nil, if_pos rfl, hdrop] at hr
    rw [hr] at hlocated
    have hplace := place_of_located? (notMem_of_isKept hkept (by decide))
      (notMem_of_isKept hkept (by decide)) hne hrest hlocated
    rwa [← front, front_of_isKept hkept] at hplace
  next hnil =>
    rw [if_neg (by simpa only [List.isEmpty_iff] using hnil)] at hr
    rw [hr] at hlocated
    exact place_of_located? (fun hc => hq (begun_subset cs hc)) (fun hc => hf (begun_subset cs hc))
      hall h hlocated

/-- After the beginning the address has kept segments, and the first of them is not empty. -/
structure Extends (cs : List Char) (s : String) : Prop where
  text : ∃ seg segs, s.toList = cs ++ joined (seg :: segs) ∧ seg ≠ [] ∧ segs ≠ [] ∧
    ∀ x ∈ seg :: segs, isKept x = true

/-- Addresses of one beginning that go on with kept segments are the same only when their texts
are. -/
theorem Extends.eq_of_parse? {s s' : String} {u : Url} (h : Extends cs s)
    (h' : Extends cs s') (hq : '?' ∉ cs) (hf : '#' ∉ cs) (hu : parse? s = some u)
    (hu' : parse? s' = some u) : s = s' := by
  obtain ⟨seg, segs, hs, hseg, hne, hkept⟩ := h.text
  obtain ⟨seg', segs', hs', hseg', hne', hkept'⟩ := h'.text
  have hplace := place_of_parse? hs hq hf hseg hne hkept hu
  have hplace' := place_of_parse? hs' hq hf hseg' hne' hkept' hu'
  have hjoined : joined (seg :: segs) = joined (seg' :: segs') := by
    rw [hplace] at hplace'
    split at hplace'
    · exact congrArg ('/' :: ·) hplace'
    · exact List.append_cancel_left hplace'
  rw [← String.toList_inj, hs, hs', hjoined]

end Reading

end Provision.Http.Url
