import Provision.Json.Decode
import Provision.Proofs.Json.Literals

/-!
Every JSON text is read, and as the value that it spells. Wherever a value may stand, the reader
goes over its characters to where just that value is complete.
-/
namespace Provision.Json

/-- Characters that may stand after a value. -/
def IsSequel (cs : List Char) : Prop := ∃ c ds, cs = c :: ds ∧ Follows c

namespace Reader

/-- The reader goes on over characters. -/
abbrev Reads : Reader → List Char → Reader → Prop := Path fun r c r' => r.step c = some r'

variable {r r' : Reader} {cs : List Char} {v : Json} {ctx : Context}

theorem run_of_reads (h : r.Reads cs r') : r.run (cs.map .char) = some r' := by
  induction h with
  | nil => rfl
  | cons hstep _ ih => simp only [List.map_cons, run, read, hstep, Option.bind_some, ih]

/-- Only the first step tells states apart. -/
theorem reads_of_step_eq {s : Reader} {c : Char} (h : s.step c = r.step c)
    (h' : r.Reads (c :: cs) r') :
    s.Reads (c :: cs) r' := by
  cases h' with
  | cons hstep hrest => exact .cons (h.trans hstep) hrest

/-- The state passes over white space. -/
def Rests (r : Reader) : Prop := ∀ c, isWhite c = true → r.step c = some r

theorem rests_value (ctx : Context) : (value ctx).Rests := fun _ hc => if_pos hc

theorem rests_firstItem (outer : Context) : (firstItem outer).Rests := fun _ hc => if_pos hc

theorem rests_nextItem (done : List Json) (outer : Context) : (nextItem done outer).Rests :=
  fun _ hc => if_pos hc

theorem rests_firstName (outer : Context) : (firstName outer).Rests := fun _ hc => if_pos hc

theorem rests_nextName (done : List (Str × Json)) (outer : Context) : (nextName done outer).Rests :=
  fun _ hc => if_pos hc

theorem rests_colon (done : List (Str × Json)) (name : Str) (outer : Context) :
    (colon done name outer).Rests :=
  fun _ hc => if_pos hc

theorem rests_close (v : Json) : (ctx : Context) → (ctx.close v).Rests
  | .top | .item .. | .member .. => fun _ hc => if_pos hc

theorem Rests.reads (h : r.Rests) (hcs : Space cs) : r.Reads cs r := by
  induction cs with
  | nil => exact .nil r
  | cons c cs ih =>
    exact .cons (h c (hcs c List.mem_cons_self)) (ih fun d hd => hcs d (List.mem_cons_of_mem _ hd))

/-- A value may begin, in this context. A bracket may be the end of a list instead. -/
def Awaits (r : Reader) (ctx : Context) : Prop :=
  ∀ c, isWhite c = false → c ≠ ']' → r.step c = open? ctx c

theorem awaits_value (ctx : Context) : (value ctx).Awaits ctx := by
  intro c hw _
  simp only [step, hw, Bool.false_eq_true, if_false]

theorem awaits_firstItem (outer : Context) : (firstItem outer).Awaits (.item [] outer) := by
  intro c hw hc
  simp only [step, hw, Bool.false_eq_true, if_false, hc]

theorem awaits_nextItem (done : List Json) (outer : Context) :
    (nextItem done outer).Awaits (.item done outer) := by
  intro c hw _
  simp only [step, hw, Bool.false_eq_true, if_false]

/-- The value is complete in its context. A number stays open until something follows that is no
part of it. -/
inductive Completes : Reader → Json → Context → Prop
  | closed (v : Json) (ctx : Context) : Completes (ctx.close v) v ctx
  | number {n : NumberState} (h : n.isComplete = true) (ctx : Context) :
      Completes (.number n ctx) (.number n.numeral) ctx

theorem stepAfter_eq (v : Json) (ctx : Context) (c : Char) :
    stepAfter v ctx c = (ctx.close v).step c := by
  cases ctx <;> rfl

/-- What may follow the value goes on from it. -/
theorem Completes.follow (h : r.Completes v ctx) {c : Char} (hc : Follows c)
    (h' : (ctx.close v).Reads (c :: cs) r') : r.Reads (c :: cs) r' := by
  cases h with
  | closed => exact h'
  | number hn =>
    refine reads_of_step_eq ?_ h'
    rw [← stepAfter_eq]
    simp only [step, NumberState.step_of_follows hn hc]

/-- White space may stand before what follows. -/
theorem Completes.follow_space (h : r.Completes v ctx) {before : List Char} (hbefore : Space before)
    (hcs : IsSequel cs) (h' : (ctx.close v).Reads cs r') : r.Reads (before ++ cs) r' := by
  cases before with
  | nil =>
    obtain ⟨c, ds, rfl, hc⟩ := hcs
    exact h.follow hc h'
  | cons b before =>
    exact h.follow (.inl (hbefore b List.mem_cons_self))
      (((rests_close v ctx).reads hbefore).append h')

theorem Completes.finish? (h : r.Completes v .top) : r.finish? = some v := by
  generalize hctx : Context.top = ctx at h
  cases h with
  | closed =>
    subst hctx
    rfl
  | number hn =>
    subst hctx
    exact if_pos hn

/-- A text may end after its value. -/
theorem Completes.finish_space (h : r.Completes v .top) (hcs : Space cs) :
    ∃ r', r.Reads cs r' ∧ r'.finish? = some v := by
  cases cs with
  | nil => exact ⟨r, .nil r, h.finish?⟩
  | cons c cs =>
    exact ⟨.finished v,
      h.follow (.inl (hcs c List.mem_cons_self)) ((rests_close v .top).reads hcs), rfl⟩

section Literals

theorem open?_of_start? {c : Char} {n : NumberState} (h : NumberState.start? c = some n)
    (ctx : Context) :
    open? ctx c = some (.number n ctx) ∧ isWhite c = false ∧ c ≠ ']' := by
  let others := ['\x7b', '[', '"', 't', 'f', 'n', ' ', '\n', '\t', '\r', ']']
  have hnone : (others.all fun d => (NumberState.start? d).isNone) = true := rfl
  have hne : ∀ d ∈ others, c ≠ d := by
    rintro d hd rfl
    have hnumber := List.all_eq_true.mp hnone c hd
    rw [h] at hnumber
    cases hnumber
  simp only [others, List.mem_cons, List.not_mem_nil, or_false, forall_eq_or_imp, forall_eq] at hne
  simp [open?, isWhite, h, hne]

theorem reads_of_number_takes {s t : NumberState} (h : s.Takes cs t) (ctx : Context) :
    (Reader.number s ctx).Reads cs (.number t ctx) :=
  Path.map (f := fun s => Reader.number s ctx) (fun _ _ _ hstep => by simp only [step, hstep]) h

theorem reads_of_string_takes {s t : StringState} (h : s.Takes cs t) (ctx : Context) :
    (Reader.string s ctx).Reads cs (.string t ctx) :=
  Path.map (f := fun s => Reader.string s ctx) (fun _ _ _ hstep => by simp only [step, hstep]) h

theorem reads_of_name_takes {s t : StringState} (h : s.Takes cs t) (done : List (Str × Json))
    (outer : Context) :
    (Reader.name s done outer).Reads cs (.name t done outer) :=
  Path.map (f := fun s => Reader.name s done outer)
    (fun _ _ _ hstep => by simp only [step, hstep]) h

theorem reads_number {n : Numeral} (h : SpellsNumber cs n) (hr : r.Awaits ctx) :
    ∃ r', r.Reads cs r' ∧ r'.Completes (.number n) ctx := by
  obtain ⟨c, ds, s, t, rfl, hstart, ht, hcomplete, rfl⟩ := NumberState.exists_takes h
  obtain ⟨hopen, hwhite, hbracket⟩ := open?_of_start? hstart ctx
  exact ⟨.number t ctx, .cons ((hr c hwhite hbracket).trans hopen) (reads_of_number_takes ht ctx),
    .number hcomplete ctx⟩

theorem reads_string {s : Str} (h : SpellsStr cs s) (hr : r.Awaits ctx) :
    r.Reads cs (ctx.close (.string s)) := by
  obtain ⟨ds, t, rfl, ht, hend⟩ := StringState.exists_takes h
  refine .cons (hr '"' rfl (by decide)) ((reads_of_string_takes ht ctx).append (.cons ?_ (.nil _)))
  simp only [step, hend]

theorem reads_name {k : Str} (h : SpellsStr cs k) {done : List (Str × Json)} {outer : Context}
    (hr : r.step '"' = some (.name .start done outer)) : r.Reads cs (.colon done k outer) := by
  obtain ⟨ds, t, rfl, ht, hend⟩ := StringState.exists_takes h
  refine .cons hr ((reads_of_name_takes ht done outer).append (.cons ?_ (.nil _)))
  simp only [step, hend]

end Literals

/-- Wherever a value may stand, the reader goes over the characters and has the value complete. -/
def Knows (cs : List Char) (v : Json) : Prop :=
  ∀ ⦃r : Reader⦄ ⦃ctx : Context⦄, r.Awaits ctx → ∃ r', r.Reads cs r' ∧ r'.Completes v ctx

section Parts

/-- After a part there is a comma or the end. -/
theorem isSequel_of_commas {α : Type} (f : α → List Char) (as : List α) {last : Char}
    (h : Follows last) :
    IsSequel (as.flatMap (fun a => ',' :: f a) ++ [last]) := by
  cases as with
  | nil => exact ⟨last, [], rfl, h⟩
  | cons a as => exact ⟨',', _, rfl, .inr (.inl rfl)⟩

/-- A part, with the white space around it and what comes after. -/
theorem reads_part {p : Part} (hspaced : p.IsSpaced) (h : Knows p.text p.value) (hrests : r.Rests)
    (hr : r.Awaits ctx) (hcs : IsSequel cs) (hrest : (ctx.close p.value).Reads cs r') :
    r.Reads (p.chars ++ cs) r' := by
  obtain ⟨s, hreads, hs⟩ := h hr
  rw [Part.chars, List.append_assoc, List.append_assoc]
  exact (hrests.reads hspaced.1).append (hreads.append (hs.follow_space hspaced.2 hcs hrest))

/-- From the end of one item to the end of the list. -/
theorem reads_items {ps : List Part} (hspaced : ∀ p ∈ ps, p.IsSpaced)
    (h : ∀ p ∈ ps, Knows p.text p.value) (done : List Json) (outer : Context) :
    (afterItem done outer).Reads (ps.flatMap (fun p => ',' :: p.chars) ++ [']'])
      (outer.close (.array (done.reverse ++ ps.map Part.value))) := by
  induction ps generalizing done with
  | nil =>
    rw [List.map_nil, List.append_nil]
    exact .cons rfl (.nil _)
  | cons p ps ih =>
    have hrest := ih (fun q hq => hspaced q (List.mem_cons_of_mem _ hq))
      (fun q hq => h q (List.mem_cons_of_mem _ hq)) (p.value :: done)
    rw [List.reverse_cons, List.append_assoc, List.singleton_append] at hrest
    have hnext :=
      reads_part (hspaced p List.mem_cons_self) (h p List.mem_cons_self) (rests_nextItem done outer)
      (awaits_nextItem done outer) (isSequel_of_commas _ ps (.inr (.inr (.inl rfl)))) hrest
    rw [List.flatMap_cons, List.append_assoc]
    exact .cons rfl hnext

/-- A member, where its name may stand, and what comes after. -/
theorem reads_member {m : Member} (hnamed : m.IsNamed) (hspaced : m.toPart.IsSpaced)
    (h : Knows m.text m.value) {done : List (Str × Json)} {outer : Context} (hrests : r.Rests)
    (hr : r.step '"' = some (.name .start done outer)) (hcs : IsSequel cs)
    (hrest : (afterMember (m.entry :: done) outer).Reads cs r') : r.Reads (m.chars ++ cs) r' := by
  obtain ⟨hfront, hname, hback⟩ := hnamed
  have hpart :=
    reads_part hspaced h (rests_value _) (awaits_value (.member done m.name outer)) hcs hrest
  have hcolon : (colon done m.name outer).Reads (m.back ++ ':' :: (m.toPart.chars ++ cs)) r' :=
    ((rests_colon done m.name outer).reads hback).append (.cons rfl hpart)
  simp only [Member.chars, List.append_assoc, List.cons_append]
  exact (hrests.reads hfront).append ((reads_name hname hr).append hcolon)

/-- From the end of one member to the end of the object. -/
theorem reads_members {ms : List Member} (hnamed : ∀ m ∈ ms, m.IsNamed)
    (hspaced : ∀ m ∈ ms, m.toPart.IsSpaced) (h : ∀ m ∈ ms, Knows m.text m.value)
    (done : List (Str × Json)) (outer : Context) :
    (afterMember done outer).Reads (ms.flatMap (fun m => ',' :: m.chars) ++ ['\x7d'])
      (outer.close (.object (done.reverse ++ ms.map Member.entry))) := by
  induction ms generalizing done with
  | nil =>
    rw [List.map_nil, List.append_nil]
    exact .cons rfl (.nil _)
  | cons m ms ih =>
    have hrest := ih (fun n hn => hnamed n (List.mem_cons_of_mem _ hn))
      (fun n hn => hspaced n (List.mem_cons_of_mem _ hn))
      (fun n hn => h n (List.mem_cons_of_mem _ hn))
      (m.entry :: done)
    rw [List.reverse_cons, List.append_assoc, List.singleton_append] at hrest
    have hnext := reads_member (hnamed m List.mem_cons_self) (hspaced m List.mem_cons_self)
      (h m List.mem_cons_self) (rests_nextName done outer) rfl
      (isSequel_of_commas _ ms (.inr (.inr (.inr rfl)))) hrest
    rw [List.flatMap_cons, List.append_assoc]
    exact .cons rfl hnext

end Parts

/-- A value is known by any of its texts. -/
theorem knows_of_spells (h : Spells cs v) : Knows cs v := by
  induction h with
  | null =>
    intro r ctx hr
    have hword : (word 'u' ['l', 'l'] .null ctx).Reads ['u', 'l', 'l'] (ctx.close .null) :=
      .cons rfl (.cons rfl (.cons rfl (.nil _)))
    exact ⟨_, .cons (hr 'n' rfl (by decide)) hword, .closed _ _⟩
  | true =>
    intro r ctx hr
    have hword :
        (word 'r' ['u', 'e'] (.bool true) ctx).Reads ['r', 'u', 'e'] (ctx.close (.bool true)) :=
      .cons rfl (.cons rfl (.cons rfl (.nil _)))
    exact ⟨_, .cons (hr 't' rfl (by decide)) hword, .closed _ _⟩
  | false =>
    intro r ctx hr
    have hword : (word 'a' ['l', 's', 'e'] (.bool false) ctx).Reads ['a', 'l', 's', 'e']
        (ctx.close (.bool false)) :=
      .cons rfl (.cons rfl (.cons rfl (.cons rfl (.nil _))))
    exact ⟨_, .cons (hr 'f' rfl (by decide)) hword, .closed _ _⟩
  | number h =>
    intro r ctx hr
    exact reads_number h hr
  | string h =>
    intro r ctx hr
    exact ⟨_, reads_string h hr, .closed _ _⟩
  | noItems hcs =>
    intro r ctx hr
    have hend : (firstItem ctx).Reads [']'] (ctx.close (.array [])) := .cons rfl (.nil _)
    exact ⟨_, .cons (hr '[' rfl (by decide)) (((rests_firstItem ctx).reads hcs).append hend),
      .closed _ _⟩
  | @items p ps hspaced _ ih =>
    intro r ctx hr
    have hrest := reads_items (fun q hq => hspaced q (List.mem_cons_of_mem _ hq))
      (fun q hq => ih q (List.mem_cons_of_mem _ hq)) [p.value] ctx
    have hfirst :=
      reads_part (hspaced p List.mem_cons_self) (ih p List.mem_cons_self) (rests_firstItem ctx)
      (awaits_firstItem ctx) (isSequel_of_commas _ ps (.inr (.inr (.inl rfl)))) hrest
    exact ⟨_, .cons (hr '[' rfl (by decide)) hfirst, .closed _ _⟩
  | noMembers hcs =>
    intro r ctx hr
    have hend : (firstName ctx).Reads ['\x7d'] (ctx.close (.object [])) := .cons rfl (.nil _)
    exact ⟨_, .cons (hr '\x7b' rfl (by decide)) (((rests_firstName ctx).reads hcs).append hend),
      .closed _ _⟩
  | @members m ms hnamed hspaced _ ih =>
    intro r ctx hr
    have hrest := reads_members (fun n hn => hnamed n (List.mem_cons_of_mem _ hn))
      (fun n hn => hspaced n (List.mem_cons_of_mem _ hn))
      (fun n hn => ih n (List.mem_cons_of_mem _ hn))
      [m.entry] ctx
    have hfirst := reads_member (hnamed m List.mem_cons_self) (hspaced m List.mem_cons_self)
      (ih m List.mem_cons_self) (rests_firstName ctx) rfl
      (isSequel_of_commas _ ms (.inr (.inr (.inr rfl)))) hrest
    exact ⟨_, .cons (hr '\x7b' rfl (by decide)) hfirst, .closed _ _⟩

end Reader

/-- Whatever is JSON is read, as the value that it stands for. -/
theorem parse_of_standsFor {s : String} {v : Json} (h : StandsFor s v) : parse s = some v := by
  obtain ⟨before, cs, after, hbefore, hafter, hspells, htext⟩ := h
  obtain ⟨r, hreads, hr⟩ := Reader.knows_of_spells hspells (Reader.awaits_value .top)
  obtain ⟨r', hrest, hfinish⟩ := hr.finish_space hafter
  have hrun :=
    Reader.run_of_reads (((Reader.rests_value .top).reads hbefore).append (hreads.append hrest))
  rw [parse, readSymbols, Symbol.ofText, htext, Reader.start, hrun]
  exact hfinish

/-- A text of a value is decoded as the value is. -/
theorem Codec.decodeText_eq_ok_iff {α : Type} {c : Codec α} {s : String} {v : Json}
    (hs : StandsFor s v) {a : α} :
    c.decodeText s = .ok a ↔ c.decode v = .ok a := by
  have hread : readSymbols (Symbol.ofText s) = some v := parse_of_standsFor hs
  simp only [decodeText, decodeSymbols, hread]
  cases c.decode v with
  | error e => exact ⟨nofun, nofun⟩
  | ok b =>
    constructor <;> intro h <;> cases h <;> rfl

end Provision.Json
