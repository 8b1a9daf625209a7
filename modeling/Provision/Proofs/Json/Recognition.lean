import Provision.Proofs.Json.Reading
import Provision.Proofs.Json.Spelling

/-!
Nothing but JSON is read. In each of its states the reader knows of what kind the characters before
are: which values and members they spell, and what of the next one. At the end they are a text.
-/
namespace Provision.Json

section Lists

/-- Commas after the parts but the last are commas before the parts but the first. -/
theorem exists_commas {α : Type} (f : α → List Char) (as : List α) (a : α) :
    ∃ b bs, as ++ [a] = b :: bs ∧
      as.flatMap (fun x => f x ++ [',']) ++ f a = f b ++ bs.flatMap fun x => ',' :: f x := by
  induction as with
  | nil => exact ⟨a, [], rfl, (List.append_nil _).symm⟩
  | cons x as ih =>
    obtain ⟨b, bs, has, hcommas⟩ := ih
    refine ⟨x, b :: bs, congrArg (x :: ·) has, ?_⟩
    simp only [List.flatMap_cons, List.append_assoc, hcommas]
    rfl

/-- Parts that spell the items of a list. -/
structure ItemsOf (ps : List Part) (vs : List Json) : Prop where
  spaced : ∀ p ∈ ps, p.IsSpaced
  spells : ∀ p ∈ ps, Spells p.text p.value
  values : vs = ps.map Part.value

/-- Members that spell those of an object. -/
structure MembersOf (ms : List Member) (es : List (Str × Json)) : Prop where
  named : ∀ m ∈ ms, m.IsNamed
  spaced : ∀ m ∈ ms, m.toPart.IsSpaced
  spells : ∀ m ∈ ms, Spells m.text m.value
  entries : es = ms.map Member.entry

theorem itemsOf_nil : ItemsOf [] [] := ⟨List.forall_mem_nil _, List.forall_mem_nil _, rfl⟩

theorem membersOf_nil : MembersOf [] [] :=
  ⟨List.forall_mem_nil _, List.forall_mem_nil _, List.forall_mem_nil _, rfl⟩

variable {ps : List Part} {p : Part} {vs : List Json} {ms : List Member} {m : Member}
  {es : List (Str × Json)}

theorem ItemsOf.concat (h : ItemsOf ps vs) (hspaced : p.IsSpaced) (hs : Spells p.text p.value) :
    ItemsOf (ps ++ [p]) (vs ++ [p.value]) where
  spaced := List.forall_mem_append.mpr ⟨h.spaced, List.forall_mem_singleton.mpr hspaced⟩
  spells := List.forall_mem_append.mpr ⟨h.spells, List.forall_mem_singleton.mpr hs⟩
  values := by
    rw [h.values, List.map_append]
    rfl

theorem MembersOf.concat (h : MembersOf ms es) (hnamed : m.IsNamed) (hspaced : m.toPart.IsSpaced)
    (hs : Spells m.text m.value) : MembersOf (ms ++ [m]) (es ++ [m.entry]) where
  named := List.forall_mem_append.mpr ⟨h.named, List.forall_mem_singleton.mpr hnamed⟩
  spaced := List.forall_mem_append.mpr ⟨h.spaced, List.forall_mem_singleton.mpr hspaced⟩
  spells := List.forall_mem_append.mpr ⟨h.spells, List.forall_mem_singleton.mpr hs⟩
  entries := by
    rw [h.entries, List.map_append]
    rfl

theorem ItemsOf.spells_array (h : ItemsOf (ps ++ [p]) vs) :
    Spells ('[' :: (ps.flatMap (fun q => q.chars ++ [',']) ++ p.chars ++ [']'])) (.array vs) := by
  obtain ⟨hspaced, hspells, rfl⟩ := h
  obtain ⟨q, qs, hq, hcommas⟩ := exists_commas Part.chars ps p
  rw [hq] at hspaced hspells ⊢
  rw [hcommas, List.append_assoc]
  exact .items hspaced hspells

theorem MembersOf.spells_object (h : MembersOf (ms ++ [m]) es) :
    Spells ('\x7b' :: (ms.flatMap (fun n => n.chars ++ [',']) ++ m.chars ++ ['\x7d']))
      (.object es) := by
  obtain ⟨hnamed, hspaced, hspells, rfl⟩ := h
  obtain ⟨n, ns, hn, hcommas⟩ := exists_commas Member.chars ms m
  rw [hn] at hnamed hspaced hspells ⊢
  rw [hcommas, List.append_assoc]
  exact .members hnamed hspaced hspells

end Lists

section Contexts

mutual

/-- The characters may stand before a value in this context. -/
inductive BeforeValue : Context → List Char → Prop
  | top {ws : List Char} (h : Space ws) : BeforeValue .top ws
  | item {outer : Context} {cs ws : List Char} {ps : List Part} {done : List Json}
      (h : BeforeValue outer cs) (hdone : ItemsOf ps done.reverse) (hws : Space ws) :
      BeforeValue (.item done outer) (cs ++ '[' :: (ps.flatMap (fun p => p.chars ++ [',']) ++ ws))
  | member {outer : Context} {cs nameText back ws : List Char}
      {done : List (Str × Json)} {name : Str} (h : BeforeName done outer cs)
      (hname : SpellsStr nameText name) (hback : Space back) (hws : Space ws) :
      BeforeValue (.member done name outer) (cs ++ (nameText ++ (back ++ ':' :: ws)))

/-- The characters may stand before a name, after these members. -/
inductive BeforeName : List (Str × Json) → Context → List Char → Prop
  | mk {outer : Context} {cs ws : List Char} {ms : List Member} {done : List (Str × Json)}
      (h : BeforeValue outer cs) (hdone : MembersOf ms done.reverse) (hws : Space ws) :
      BeforeName done outer (cs ++ '\x7b' :: (ms.flatMap (fun m => m.chars ++ [',']) ++ ws))

end

variable {ctx outer : Context} {cs : List Char}

theorem BeforeValue.space (h : BeforeValue ctx cs) {c : Char} (hc : isWhite c = true) :
    BeforeValue ctx (cs ++ [c]) := by
  cases h with
  | top h => exact .top (h.concat hc)
  | item h hdone hws =>
    simp only [List.append_assoc, List.cons_append]
    exact .item h hdone (hws.concat hc)
  | member h hname hback hws =>
    simp only [List.append_assoc, List.cons_append]
    exact .member h hname hback (hws.concat hc)

theorem BeforeName.space {done : List (Str × Json)} (h : BeforeName done outer cs) {c : Char}
    (hc : isWhite c = true) : BeforeName done outer (cs ++ [c]) := by
  cases h with
  | mk h hdone hws =>
    simp only [List.append_assoc, List.cons_append]
    exact .mk h hdone (hws.concat hc)

theorem BeforeValue.bracket (h : BeforeValue ctx cs) : BeforeValue (.item [] ctx) (cs ++ ['[']) :=
  .item h (show ItemsOf [] (List.reverse []) from itemsOf_nil) space_nil

theorem BeforeValue.brace (h : BeforeValue ctx cs) : BeforeName [] ctx (cs ++ ['\x7b']) :=
  .mk h (show MembersOf [] (List.reverse []) from membersOf_nil) space_nil

variable {text after : List Char} {v : Json}

/-- What may end a list that has no items. -/
theorem BeforeValue.noItems (h : BeforeValue (.item [] outer) cs) :
    ∃ front whole, BeforeValue outer front ∧ Spells whole (.array []) ∧
      cs ++ [']'] = front ++ whole := by
  cases h with
  | @item _ cs ws ps _ h hdone hws =>
    obtain rfl := List.map_eq_nil_iff.mp hdone.values.symm
    exact ⟨cs, _, h, .noItems hws, List.append_assoc _ _ _⟩

theorem BeforeName.noMembers (h : BeforeName [] outer cs) :
    ∃ front whole, BeforeValue outer front ∧ Spells whole (.object []) ∧
      cs ++ ['\x7d'] = front ++ whole := by
  cases h with
  | @mk _ cs ws ms _ h hdone hws =>
    obtain rfl := List.map_eq_nil_iff.mp hdone.entries.symm
    exact ⟨cs, _, h, .noMembers hws, List.append_assoc _ _ _⟩

section Items

variable {done : List Json} (h : BeforeValue (.item done outer) cs) (hv : Spells text v)
  (hafter : Space after)

include h hv hafter

/-- The items up to this one, which may go on behind a comma or end with a bracket. -/
theorem BeforeValue.exists_itemsOf :
    ∃ front ps p, BeforeValue outer front ∧ ItemsOf (ps ++ [p]) (v :: done).reverse ∧
      cs ++ (text ++ after) =
        front ++ '[' :: (ps.flatMap (fun p => p.chars ++ [',']) ++ p.chars) := by
  cases h with
  | @item _ cs ws ps _ h hdone hws =>
    refine ⟨cs, ps, ⟨ws, text, after, v⟩, h, ?_, ?_⟩
    · rw [List.reverse_cons]
      exact hdone.concat ⟨hws, hafter⟩ hv
    · simp [Part.chars]

theorem BeforeValue.nextItem :
    BeforeValue (.item (v :: done) outer) (cs ++ (text ++ after) ++ [',']) := by
  obtain ⟨front, ps, p, hfront, hps, he⟩ := h.exists_itemsOf hv hafter
  rw [he]
  simpa using BeforeValue.item hfront hps space_nil

theorem BeforeValue.items :
    ∃ front whole, BeforeValue outer front ∧ Spells whole (.array (v :: done).reverse) ∧
      cs ++ (text ++ after) ++ [']'] = front ++ whole := by
  obtain ⟨front, ps, p, hfront, hps, he⟩ := h.exists_itemsOf hv hafter
  exact ⟨front, _, hfront, hps.spells_array, by simp [he]⟩

end Items

section Members

variable {done : List (Str × Json)} {name : Str} (h : BeforeValue (.member done name outer) cs)
  (hv : Spells text v) (hafter : Space after)

include h hv hafter

/-- The members up to this one. -/
theorem BeforeValue.exists_membersOf :
    ∃ front ms m, BeforeValue outer front ∧ MembersOf (ms ++ [m]) ((name, v) :: done).reverse ∧
      cs ++ (text ++ after) =
        front ++ '\x7b' :: (ms.flatMap (fun m => m.chars ++ [',']) ++ m.chars) := by
  cases h with
  | @member _ _ nameText back ws _ _ h hname hback hws =>
    cases h with
    | @mk _ cs front ms _ h hdone hfront =>
      refine ⟨cs, ms, ⟨⟨ws, text, after, v⟩, front, nameText, back, name⟩, h, ?_, ?_⟩
      · rw [List.reverse_cons]
        exact hdone.concat ⟨hfront, hname, hback⟩ ⟨hws, hafter⟩ hv
      · simp [Member.chars, Part.chars]

theorem BeforeValue.nextName :
    BeforeName ((name, v) :: done) outer (cs ++ (text ++ after) ++ [',']) := by
  obtain ⟨front, ms, m, hfront, hms, he⟩ := h.exists_membersOf hv hafter
  rw [he]
  simpa using BeforeName.mk hfront hms space_nil

theorem BeforeValue.members :
    ∃ front whole, BeforeValue outer front ∧ Spells whole (.object ((name, v) :: done).reverse) ∧
      cs ++ (text ++ after) ++ ['\x7d'] = front ++ whole := by
  obtain ⟨front, ms, m, hfront, hms, he⟩ := h.exists_membersOf hv hafter
  exact ⟨front, _, hfront, hms.spells_object, by simp [he]⟩

end Members
end Contexts

namespace Reader

/-- The characters up to here, in each state of the reader. -/
inductive After : Reader → List Char → Prop
  | value {ctx : Context} {cs : List Char} (h : BeforeValue ctx cs) : After (.value ctx) cs
  | firstItem {outer : Context} {cs : List Char} (h : BeforeValue (.item [] outer) cs) :
      After (.firstItem outer) cs
  | nextItem {done : List Json} {outer : Context} {cs : List Char}
      (h : BeforeValue (.item done outer) cs) :
      After (.nextItem done outer) cs
  | firstName {outer : Context} {cs : List Char} (h : BeforeName [] outer cs) :
      After (.firstName outer) cs
  | nextName {done : List (Str × Json)} {outer : Context} {cs : List Char}
      (h : BeforeName done outer cs) :
      After (.nextName done outer) cs
  | colon {done : List (Str × Json)} {name : Str} {outer : Context} {cs text back : List Char}
      (h : BeforeName done outer cs) (hname : SpellsStr text name) (hback : Space back) :
      After (.colon done name outer) (cs ++ (text ++ back))
  | word {next : Char} {rest read : List Char} {v : Json} {ctx : Context} {cs : List Char}
      (h : BeforeValue ctx cs) (hv : Spells (read ++ next :: rest) v) :
      After (.word next rest v ctx) (cs ++ read)
  | number {c : Char} {s t : NumberState} {ctx : Context} {cs ds : List Char}
      (h : BeforeValue ctx cs) (hstart : NumberState.start? c = some s) (ht : s.Takes ds t) :
      After (.number t ctx) (cs ++ c :: ds)
  | string {t : StringState} {ctx : Context} {cs ds : List Char} (h : BeforeValue ctx cs)
      (ht : StringState.start.Takes ds t) : After (.string t ctx) (cs ++ '"' :: ds)
  | name {t : StringState} {done : List (Str × Json)} {outer : Context} {cs ds : List Char}
      (h : BeforeName done outer cs) (ht : StringState.start.Takes ds t) :
      After (.name t done outer) (cs ++ '"' :: ds)
  | close {v : Json} {ctx : Context} {cs text after : List Char} (h : BeforeValue ctx cs)
      (hv : Spells text v) (hafter : Space after) : After (ctx.close v) (cs ++ (text ++ after))

variable {r r' : Reader} {ctx outer : Context} {cs : List Char} {c : Char}

/-- A value that is complete as it stands. -/
theorem After.closed {v : Json}
    (h : ∃ front whole, BeforeValue ctx front ∧ Spells whole v ∧ cs = front ++ whole) :
    (ctx.close v).After cs := by
  obtain ⟨front, whole, hfront, hwhole, rfl⟩ := h
  have hclose := After.close hfront hwhole space_nil
  rwa [List.append_nil] at hclose

theorem after_open? (h : BeforeValue ctx cs) (hopen : open? ctx c = some r') :
    r'.After (cs ++ [c]) := by
  obtain ⟨rfl, ⟨⟩⟩ | ⟨-, hopen⟩ := ite_eq_iff.mp hopen
  · exact .firstName h.brace
  obtain ⟨rfl, ⟨⟩⟩ | ⟨-, hopen⟩ := ite_eq_iff.mp hopen
  · exact .firstItem h.bracket
  obtain ⟨rfl, ⟨⟩⟩ | ⟨-, hopen⟩ := ite_eq_iff.mp hopen
  · exact .string h (.nil _)
  obtain ⟨rfl, ⟨⟩⟩ | ⟨-, hopen⟩ := ite_eq_iff.mp hopen
  · have hword : Spells (['t'] ++ 'r' :: ['u', 'e']) (.bool true) := .true
    exact .word h hword
  obtain ⟨rfl, ⟨⟩⟩ | ⟨-, hopen⟩ := ite_eq_iff.mp hopen
  · have hword : Spells (['f'] ++ 'a' :: ['l', 's', 'e']) (.bool false) := .false
    exact .word h hword
  obtain ⟨rfl, ⟨⟩⟩ | ⟨-, hopen⟩ := ite_eq_iff.mp hopen
  · have hword : Spells (['n'] ++ 'u' :: ['l', 'l']) .null := .null
    exact .word h hword
  obtain ⟨s, hs, rfl⟩ := Option.map_eq_some_iff.mp hopen
  exact .number h hs (.nil s)

theorem after_stepAfter {text after : List Char} {v : Json} (h : BeforeValue ctx cs)
    (hv : Spells text v) (hafter : Space after) (hstep : stepAfter v ctx c = some r') :
    r'.After (cs ++ (text ++ after) ++ [c]) := by
  have hspace (hc : isWhite c = true) : (ctx.close v).After (cs ++ (text ++ after) ++ [c]) := by
    simp only [List.append_assoc]
    exact .close h hv (hafter.concat hc)
  cases ctx with
  | top =>
    obtain ⟨hc, ⟨⟩⟩ | ⟨-, ⟨⟩⟩ := ite_eq_iff.mp hstep
    exact hspace hc
  | item done outer =>
    obtain ⟨hc, ⟨⟩⟩ | ⟨-, hstep⟩ := ite_eq_iff.mp hstep
    · exact hspace hc
    obtain ⟨rfl, ⟨⟩⟩ | ⟨-, hstep⟩ := ite_eq_iff.mp hstep
    · exact .nextItem (h.nextItem hv hafter)
    obtain ⟨rfl, ⟨⟩⟩ | ⟨-, ⟨⟩⟩ := ite_eq_iff.mp hstep
    exact .closed (h.items hv hafter)
  | member done name outer =>
    obtain ⟨hc, ⟨⟩⟩ | ⟨-, hstep⟩ := ite_eq_iff.mp hstep
    · exact hspace hc
    obtain ⟨rfl, ⟨⟩⟩ | ⟨-, hstep⟩ := ite_eq_iff.mp hstep
    · exact .nextName (h.nextName hv hafter)
    obtain ⟨rfl, ⟨⟩⟩ | ⟨-, ⟨⟩⟩ := ite_eq_iff.mp hstep
    exact .closed (h.members hv hafter)

section Literals

variable {ds : List Char}

theorem after_number {first : Char} {s t : NumberState} (h : BeforeValue ctx cs)
    (hstart : NumberState.start? first = some s) (ht : s.Takes ds t)
    (hstep : (number t ctx).step c = some r') :
    r'.After (cs ++ first :: ds ++ [c]) := by
  simp only [step] at hstep
  split at hstep
  · cases hstep
  next t' ht' =>
    cases hstep
    rw [List.append_assoc]
    exact .number h hstart (ht.concat ht')
  next hend =>
    -- the character belongs to what comes after the number
    have hspells :=
      NumberState.spellsNumber_of_takes hstart ht (NumberState.isComplete_of_step hend)
    have hafter := after_stepAfter h (.number hspells) space_nil hstep
    rwa [List.append_nil] at hafter

theorem after_string {t : StringState} (h : BeforeValue ctx cs) (ht : StringState.start.Takes ds t)
    (hstep : (string t ctx).step c = some r') : r'.After (cs ++ '"' :: ds ++ [c]) := by
  simp only [step] at hstep
  split at hstep
  · cases hstep
  next t' ht' =>
    cases hstep
    rw [List.append_assoc]
    exact .string h (ht.concat ht')
  next v hend =>
    cases hstep
    exact .closed ⟨cs, _, h, .string (StringState.spellsStr_of_takes ht hend),
      List.append_assoc _ _ _⟩

theorem after_name {t : StringState} {done : List (Str × Json)} (h : BeforeName done outer cs)
    (ht : StringState.start.Takes ds t) (hstep : (name t done outer).step c = some r') :
    r'.After (cs ++ '"' :: ds ++ [c]) := by
  simp only [step] at hstep
  rw [List.append_assoc]
  split at hstep
  · cases hstep
  next t' ht' =>
    cases hstep
    exact .name h (ht.concat ht')
  next k hend =>
    cases hstep
    have hcolon := After.colon h (StringState.spellsStr_of_takes ht hend) space_nil
    rwa [List.append_nil] at hcolon

end Literals

/-- One more character. -/
theorem After.step (h : r.After cs) (hstep : r.step c = some r') : r'.After (cs ++ [c]) := by
  cases h with
  | value h =>
    obtain ⟨hc, ⟨⟩⟩ | ⟨-, hstep⟩ := ite_eq_iff.mp hstep
    · exact .value (h.space hc)
    · exact after_open? h hstep
  | firstItem h =>
    obtain ⟨hc, ⟨⟩⟩ | ⟨-, hstep⟩ := ite_eq_iff.mp hstep
    · exact .firstItem (h.space hc)
    obtain ⟨rfl, ⟨⟩⟩ | ⟨-, hstep⟩ := ite_eq_iff.mp hstep
    · exact .closed h.noItems
    · exact after_open? h hstep
  | nextItem h =>
    obtain ⟨hc, ⟨⟩⟩ | ⟨-, hstep⟩ := ite_eq_iff.mp hstep
    · exact .nextItem (h.space hc)
    · exact after_open? h hstep
  | firstName h =>
    obtain ⟨hc, ⟨⟩⟩ | ⟨-, hstep⟩ := ite_eq_iff.mp hstep
    · exact .firstName (h.space hc)
    obtain ⟨rfl, ⟨⟩⟩ | ⟨-, hstep⟩ := ite_eq_iff.mp hstep
    · exact .closed h.noMembers
    obtain ⟨rfl, ⟨⟩⟩ | ⟨-, ⟨⟩⟩ := ite_eq_iff.mp hstep
    exact .name h (.nil _)
  | nextName h =>
    obtain ⟨hc, ⟨⟩⟩ | ⟨-, hstep⟩ := ite_eq_iff.mp hstep
    · exact .nextName (h.space hc)
    obtain ⟨rfl, ⟨⟩⟩ | ⟨-, ⟨⟩⟩ := ite_eq_iff.mp hstep
    exact .name h (.nil _)
  | colon h hname hback =>
    simp only [List.append_assoc]
    obtain ⟨hc, ⟨⟩⟩ | ⟨-, hstep⟩ := ite_eq_iff.mp hstep
    · exact .colon h hname (hback.concat hc)
    obtain ⟨rfl, ⟨⟩⟩ | ⟨-, ⟨⟩⟩ := ite_eq_iff.mp hstep
    exact .value (.member h hname hback space_nil)
  | @word next rest read v ctx cs h hv =>
    cases rest with
    | nil =>
      obtain ⟨rfl, ⟨⟩⟩ | ⟨-, ⟨⟩⟩ := ite_eq_iff.mp hstep
      exact .closed ⟨cs, _, h, hv, List.append_assoc _ _ _⟩
    | cons d ds =>
      obtain ⟨rfl, ⟨⟩⟩ | ⟨-, ⟨⟩⟩ := ite_eq_iff.mp hstep
      rw [List.append_assoc]
      refine .word h ?_
      rwa [List.append_assoc]
  | number h hstart ht => exact after_number h hstart ht hstep
  | string h ht => exact after_string h ht hstep
  | name h ht => exact after_name h ht hstep
  | close h hv hafter =>
    rw [← stepAfter_eq] at hstep
    exact after_stepAfter h hv hafter hstep

/-- At the end the characters are a text. -/
theorem After.finish {v : Json} (h : r.After cs) (hfinish : r.finish? = some v) :
    ∃ before text after, Space before ∧ Space after ∧ Spells text v ∧
      cs = before ++ (text ++ after) := by
  cases h with
  | @number first s t ctx cs ds h hstart ht =>
    cases h with
    | top hws =>
      obtain ⟨hcomplete, ⟨⟩⟩ | ⟨-, ⟨⟩⟩ := ite_eq_iff.mp hfinish
      have hspells := NumberState.spellsNumber_of_takes hstart ht hcomplete
      exact ⟨cs, first :: ds, [], hws, space_nil, .number hspells, by rw [List.append_nil]⟩
    | item | member => cases hfinish
  | @close w ctx cs text after h hv hafter =>
    cases h with
    | top hws =>
      cases hfinish
      exact ⟨cs, text, after, hws, hafter, hv, rfl⟩
    | item | member => cases hfinish
  | _ => cases hfinish

theorem reads_of_run (h : r.run (cs.map .char) = some r') : r.Reads cs r' := by
  induction cs generalizing r with
  | nil =>
    cases h
    exact .nil r'
  | cons c cs ih =>
    obtain ⟨s, hstep, hrest⟩ := Option.bind_eq_some_iff.mp h
    exact .cons hstep (ih hrest)

end Reader

/-- Only JSON is read, and not as another value. -/
theorem standsFor_of_parse {s : String} {v : Json} (h : parse s = some v) : StandsFor s v := by
  obtain ⟨r, hrun, hfinish⟩ := Option.bind_eq_some_iff.mp h
  have hafter : Reader.After r ([] ++ s.toList) :=
    Path.keeps (fun _ _ _ _ hr hstep => hr.step hstep) (Reader.reads_of_run hrun)
      (.value (.top space_nil))
  obtain ⟨before, text, after, hbefore, haft, hspells, htext⟩ := hafter.finish hfinish
  exact ⟨before, text, after, hbefore, haft, hspells, htext⟩

/-- The reader reads JSON. -/
theorem parse_eq_some_iff {s : String} {v : Json} : parse s = some v ↔ StandsFor s v :=
  ⟨standsFor_of_parse, parse_of_standsFor⟩

end Provision.Json
