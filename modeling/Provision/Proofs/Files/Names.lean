import Provision.Files.Path

/-!
The names that paths are made of: those of a path that is followed from a directory, and those of a
path with another extension, which differ in the last one only.
-/
namespace Provision.Path

section Splitting

variable {sep : Char}

theorem splitChars_ne_nil (cs : List Char) : splitChars sep cs ≠ [] := by
  cases cs with
  | nil => exact List.cons_ne_nil _ _
  | cons c cs =>
    unfold splitChars
    split
    · exact List.cons_ne_nil _ _
    · split <;> exact List.cons_ne_nil _ _

theorem splitChars_append (cs ds : List Char) :
    splitChars sep (cs ++ sep :: ds) = splitChars sep cs ++ splitChars sep ds := by
  induction cs with
  | nil => simp only [List.nil_append, splitChars, if_true, List.cons_append]
  | cons c cs ih =>
    rw [List.cons_append, splitChars, splitChars, ih]
    split
    · rfl
    · cases hcs : splitChars sep cs with
      | nil => exact absurd hcs (splitChars_ne_nil cs)
      | cons p ps => rfl

theorem splitChars_of_notMem {cs : List Char} (h : sep ∉ cs) : splitChars sep cs = [cs] := by
  induction cs with
  | nil => rfl
  | cons c cs ih =>
    obtain ⟨hc, hcs⟩ := not_or.mp (mt List.mem_cons.mpr h)
    rw [splitChars, if_neg fun he => hc he.symm, ih hcs]

theorem names_ne_nil (path : String) : names path ≠ [] :=
  mt List.map_eq_nil_iff.mp (splitChars_ne_nil path.toList)

end Splitting

theorem names_of_notMem {name : String} (h : '/' ∉ name.toList) : names name = [name] := by
  rw [names, splitChars_of_notMem h, List.map_singleton, String.ofList_toList]

section Joining

/-- What a path says apart from slashes and single dots that lead nowhere. -/
def components (path : String) : List String := (names path).filter fun n => n ≠ "" ∧ n ≠ "."

/-- A path that is followed from a directory ends in the names of it. -/
theorem names_join (dir : String) {path : String} (h : isAbsolute path = false) :
    ∃ front, names (join dir path) = front ++ names path ∧
      (names dir = front ∨ names dir = front ++ [""]) := by
  simp only [join, h, Bool.false_eq_true, if_false]
  split
  next hdir =>
    by_cases hempty : dir = ""
    · subst hempty
      exact ⟨[], by simp, .inr rfl⟩
    · obtain ⟨d, hd⟩ := List.getLast?_eq_some_iff.mp (hdir.resolve_left hempty)
      refine ⟨(splitChars '/' d).map String.ofList, ?_, .inr ?_⟩
      · rw [names, String.toList_append, hd, List.append_assoc, List.singleton_append,
          splitChars_append, List.map_append]
        rfl
      · rw [names, hd, splitChars_append, List.map_append]
        rfl
  next =>
    refine ⟨names dir, ?_, .inl rfl⟩
    have hchars : (dir ++ "/" ++ path).toList = dir.toList ++ '/' :: path.toList := by simp
    rw [names, hchars, splitChars_append, List.map_append]
    rfl

theorem components_join {dir path : String} (h : isAbsolute path = false) :
    components (join dir path) = components dir ++ components path := by
  obtain ⟨front, hnames, hdir⟩ := names_join dir h
  have hfront : components dir = front.filter fun n => n ≠ "" ∧ n ≠ "." := by
    obtain hdir | hdir := hdir <;> simp [components, hdir]
  rw [hfront, components, hnames, List.filter_append]
  rfl

theorem isAbsolute_join {dir path : String} (h : isAbsolute path = false) :
    isAbsolute (join dir path) = isAbsolute dir := by
  simp only [join, h, Bool.false_eq_true, if_false]
  by_cases hempty : dir = ""
  · subst hempty
    simpa [isAbsolute] using h
  · have hne : dir.toList ≠ [] := by simpa using hempty
    obtain ⟨c, cs, hcs⟩ := List.exists_cons_of_ne_nil hne
    split <;> simp [isAbsolute, hcs]

end Joining

section Extensions

/-- A name that is followed to something of that name. -/
def IsName (name : String) : Prop := name ≠ "" ∧ name ≠ "." ∧ name ≠ ".."

instance : DecidablePred IsName := fun _ => inferInstanceAs (Decidable (_ ∧ _))

theorem isName_of_mem {name : String} {c : Char} (h : c ∈ name.toList) (hdot : c ≠ '.') :
    IsName name := by
  refine ⟨?_, ?_, ?_⟩ <;> rintro rfl <;> simp_all

/-- What stands before the last name of a path: nothing, or what ends in a slash. -/
def IsFront (dir : List Char) : Prop := dir = [] ∨ ∃ d, dir = d ++ ['/']

theorem exists_front (cs : List Char) :
    ∃ dir last, cs = dir ++ last ∧ IsFront dir ∧ '/' ∉ last := by
  by_cases h : '/' ∈ cs.reverse
  · obtain ⟨as, bs, hcs, has⟩ := List.eq_append_cons_of_mem h
    refine ⟨bs.reverse ++ ['/'], as.reverse, ?_, .inr ⟨_, rfl⟩, by simpa using has⟩
    simpa using congrArg List.reverse hcs
  · exact ⟨[], cs, rfl, .inl rfl, by simpa using h⟩

theorem IsFront.exists_names {dir : List Char} (h : IsFront dir) :
    ∃ front, ∀ cs, '/' ∉ cs → names (String.ofList (dir ++ cs)) = front ++ [String.ofList cs] := by
  obtain rfl | ⟨d, rfl⟩ := h
  · refine ⟨[], fun cs hcs => ?_⟩
    rw [List.nil_append, List.nil_append, names, String.toList_ofList, splitChars_of_notMem hcs]
    rfl
  · refine ⟨(splitChars '/' d).map String.ofList, fun cs hcs => ?_⟩
    rw [List.append_assoc, List.singleton_append, names, String.toList_ofList, splitChars_append,
      splitChars_of_notMem hcs, List.map_append]
    rfl

theorem IsFront.isAbsolute {dir : List Char} (h : IsFront dir) {cs cs' : List Char} (hcs : '/' ∉ cs)
    (hcs' : '/' ∉ cs') :
    isAbsolute (String.ofList (dir ++ cs)) = isAbsolute (String.ofList (dir ++ cs')) := by
  have hrelative : ∀ cs : List Char, '/' ∉ cs → Path.isAbsolute (String.ofList cs) = false := by
    intro cs hcs
    cases cs with
    | nil => rfl
    | cons c cs => simpa [Path.isAbsolute] using fun he : c = '/' => hcs (he ▸ List.mem_cons_self)
  obtain rfl | ⟨d, rfl⟩ := h
  · rw [List.nil_append, List.nil_append, hrelative cs hcs, hrelative cs' hcs']
  · cases d <;> simp [Path.isAbsolute]

/-- Where a path ends in a name, nothing is stripped from it. -/
theorem stripEnd_of_name {last rest : List Char} (hne : last ≠ []) (hdot : last ≠ ['.'])
    (hslash : '/' ∉ last) :
    stripEnd (last ++ rest) = last ++ rest := by
  match last, hne with
  | [c], _ =>
    have hc : c ≠ '/' := fun he => hslash (he ▸ List.mem_cons_self)
    have hc' : c ≠ '.' := fun he => hdot (he ▸ rfl)
    unfold stripEnd
    split <;> simp_all
  | c :: e :: last, _ =>
    obtain ⟨hc, he⟩ : c ≠ '/' ∧ e ≠ '/' := by
      simp only [List.mem_cons, not_or] at hslash
      exact ⟨fun h => hslash.1 h.symm, fun h => hslash.2.1 h.symm⟩
    unfold stripEnd
    split <;> simp_all

theorem mem_of_mem_stem {name : List Char} {c : Char} (h : c ∈ stem name) : c ∈ name := by
  unfold stem at h
  split at h
  · split at h
    · exact h
    · rw [List.mem_reverse] at h
      exact List.mem_reverse.mp ((List.dropWhile_sublist _).subset (List.mem_of_mem_drop h))
  · exact h

theorem withExtension_eq {path extension : String} {dir last : List Char}
    (hpath : path.toList = dir ++ last) (hdir : IsFront dir) (hslash : '/' ∉ last)
    (hlast : IsName (String.ofList last)) :
    withExtension path extension =
      if stem last = ['.'] then String.ofList (dir ++ ['.', '.'])
      else String.ofList (dir ++ stem last) ++ "." ++ extension := by
  obtain ⟨hempty, hdot, hdots⟩ : last ≠ [] ∧ last ≠ ['.'] ∧ last ≠ ['.', '.'] :=
    ⟨fun h => hlast.1 (h ▸ rfl), fun h => hlast.2.1 (h ▸ rfl), fun h => hlast.2.2 (h ▸ rfl)⟩
  have hback : stripEnd path.toList.reverse = last.reverse ++ dir.reverse := by
    rw [hpath, List.reverse_append]
    refine stripEnd_of_name (by simpa using hempty) (fun h => hdot ?_) (by simpa using hslash)
    simpa using congrArg List.reverse h
  have hall : ∀ c ∈ last.reverse, (c != '/') = true := by
    intro c hc
    simpa using fun he : c = '/' => hslash (he ▸ List.mem_reverse.mp hc)
  have hdirs : dir.reverse.takeWhile (· != '/') = [] ∧
      dir.reverse.dropWhile (· != '/') = dir.reverse := by
    obtain rfl | ⟨d, rfl⟩ := hdir <;> simp
  have hname : ((last.reverse ++ dir.reverse).takeWhile (· != '/')).reverse = last := by
    rw [List.takeWhile_append_of_pos hall, hdirs.1, List.append_nil, List.reverse_reverse]
  have hrest : ((last.reverse ++ dir.reverse).dropWhile (· != '/')).reverse = dir := by
    rw [List.dropWhile_append_of_pos hall, hdirs.2, List.reverse_reverse]
  have hlength : (last.reverse ++ dir.reverse).length = path.length := by
    rw [← String.length_toList, hpath]
    simp [Nat.add_comm]
  simp only [withExtension, hback, hname, hrest, hlength, hempty, hdot, hdots, or_self,
    if_false, and_true]

/-- A path with another extension leads on from where the path does: to another name, unless it is
the same path, or to what lies above. -/
theorem names_withExtension {path extension : String} {front : List String} {name : String}
    (hpath : names path = front ++ [name]) (hname : IsName name)
    (hextension : extension.toList ≠ [])
    (hplain : '/' ∉ extension.toList ∧ '.' ∉ extension.toList) :
    isAbsolute (withExtension path extension) = isAbsolute path ∧
      ∃ last, names (withExtension path extension) = front ++ [last] ∧
        (last = ".." ∨ IsName last ∧ (last = name → withExtension path extension = path)) := by
  obtain ⟨dir, last, hchars, hdir, hslash⟩ := exists_front path.toList
  obtain ⟨front', hfront⟩ := hdir.exists_names
  have hwhole : path = String.ofList (dir ++ last) := by rw [← hchars, String.ofList_toList]
  obtain ⟨rfl, rfl⟩ : front' = front ∧ String.ofList last = name := by
    rw [hwhole, hfront last hslash] at hpath
    simpa using hpath
  rw [withExtension_eq hchars hdir hslash hname]
  split
  · rw [hfront _ (by simp), hwhole]
    exact ⟨hdir.isAbsolute (by simp) hslash, "..", rfl, .inl rfl⟩
  · have htext : String.ofList (dir ++ stem last) ++ "." ++ extension =
        String.ofList (dir ++ (stem last ++ '.' :: extension.toList)) := by
      apply String.toList_inj.mp
      simp
    have hnone : '/' ∉ stem last ++ '.' :: extension.toList := by
      simpa [hplain.1] using fun h => hslash (mem_of_mem_stem h)
    rw [htext, hfront _ hnone, hwhole]
    refine ⟨hdir.isAbsolute hnone hslash, _, rfl, .inr ⟨?_, fun he => ?_⟩⟩
    · obtain ⟨c, hc⟩ := List.exists_mem_of_ne_nil _ hextension
      have hmem : c ∈ (String.ofList (stem last ++ '.' :: extension.toList)).toList := by simp [hc]
      exact isName_of_mem hmem fun hdot => hplain.2 (hdot ▸ hc)
    · rw [String.ofList_injective he]

end Extensions

end Provision.Path
