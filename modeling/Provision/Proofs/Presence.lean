import Provision.Http.Script
import Provision.Proofs.Client
import Provision.Proofs.Persistence

/-!
Looking for an instance over the web. What is answered follows from what the server said to the two
calls; only an answer that the instance is not found tells of its absence, and nothing that goes
wrong before passes for it.
-/
namespace Provision

open Timed

theorem ErrorKind.ofStatus_eq_notFound_iff {status : Nat} :
    ofStatus status = .notFound ↔ status = 404 := by
  constructor
  · intro h
    unfold ofStatus at h
    grind
  · rintro rfl
    rfl

theorem ComputeError.isNotFound_ofStatus {status : Nat} {text : String} :
    (ofStatus status text).isNotFound = true ↔ status = 404 := by
  rw [← ErrorKind.ofStatus_eq_notFound_iff]
  exact decide_eq_true_iff

theorem Http.Response.status_ne_of_isSuccess {r : Response} (h : r.isSuccess = true) :
    r.status ≠ 404 := by
  intro hr
  simp [isSuccess, hr] at h

namespace Client

variable {ρ : Type}

/-- A success that holds what the call asks for. -/
def Reads (q : Call) (r : Http.Response) : Prop :=
  r.isSuccess = true ∧ ∃ a, q.codec.decodeText r.content = .ok a

section Meaning

variable {q : Call} {r : Http.Response}

theorem meaning_eq_ok_iff : (∃ a, meaning q r = .ok a) ↔ Reads q r := by
  unfold meaning Reads
  by_cases hs : r.isSuccess = true
  · cases hd : q.codec.decodeText r.content <;> simp [hs]
  · simp [hs]

theorem Reads.status_ne (h : Reads q r) : r.status ≠ 404 := Http.Response.status_ne_of_isSuccess h.1

/-- Only the status says that something is not found. -/
theorem isNotFound_meaning {e : ComputeError} (h : meaning q r = .error e) :
    e.isNotFound = true ↔ r.status = 404 := by
  unfold meaning at h
  split at h
  next hs =>
    have hne := Http.Response.status_ne_of_isSuccess hs
    split at h
    next => cases h
    next =>
      cases h
      exact ⟨nofun, fun h404 => absurd h404 hne⟩
  next =>
    cases h
    exact ComputeError.isNotFound_ofStatus

section Hears

variable {c : Client ρ} {n : Instant} {w w' : Session ρ}

theorem Hears.of_ok {a : q.Answer} (h : c.Hears n q w w' (.ok a)) :
    ∃ r, c.Gets n q w r w' ∧ Reads q r := by
  generalize hx : (Except.ok a : Reply q) = x at h
  cases h with
  | unanswered => cases hx
  | answered h => exact ⟨_, h, meaning_eq_ok_iff.mp ⟨a, hx.symm⟩⟩

theorem Hears.of_error {e : ComputeError} (h : c.Hears n q w w' (.error e)) (v : Session ρ)
    (hr : c.Gets n q w r v) : ¬Reads q r := by
  generalize hx : (Except.error e : Reply q) = x at h
  intro hreads
  cases h with
  | unanswered _ hnone => exact hnone _ _ hr
  | answered h =>
    obtain ⟨rfl, rfl⟩ := h.unique hr
    obtain ⟨a, ha⟩ := meaning_eq_ok_iff.mpr hreads
    cases hx.trans ha

end Hears

end Meaning

/-- A call is left without an answer that the client could use: the server refuses the token, or
says nothing that could be one, or does not answer. -/
inductive Thwarted (c : Client ρ) (n : Instant) (q : Call) (w : Session ρ) : Prop
  | refused {u : Http.Url} {r : Http.Response} {x : ρ} (ha : c.Asks n w u)
      (hr : c.transport (tokenRequest u) w.transport = (some r, x)) (hs : ¬r.isSuccess = true)
  | garbled {u : Http.Url} {r : Http.Response} {x : ρ} (ha : c.Asks n w u)
      (hr : c.transport (tokenRequest u) w.transport = (some r, x)) {e : Json.DecodeError}
      (hd : MetadataToken.codec.decodeText r.content = .error e)
  | lost {u : Http.Url} {x : ρ} (ha : c.Asks n w u)
      (hr : c.transport (tokenRequest u) w.transport = (none, x))
  | broken {token : Option String} {w' : Session ρ} {hs : List Http.Header} {u : Http.Url} {x : ρ}
      (ht : c.Token n w token w') (hh : headers? token q = some hs)
      (hu : Http.Url.parse? (url c.endpoint q) = some u)
      (hr : c.transport ⟨verb q, u, hs, body? q⟩ w'.transport = (none, x))

theorem Asks.token_given {c : Client ρ} {n : Instant} {w w' : Session ρ} {u : Http.Url}
    {token : Option String} (ha : c.Asks n w u) (h : c.Token n w token w') :
    ∃ k x, c.Given n w k x := by
  obtain ⟨_, hsource, _⟩ := ha.source
  cases h with
  | anonymous h => cases hsource.symm.trans h
  | fixed h => cases hsource.symm.trans h
  | kept _ hk => cases ha.stale.symm.trans hk
  | fetched h => exact ⟨_, _, h⟩

theorem Thwarted.not_gets {c : Client ρ} {n : Instant} {q : Call} {w w' : Session ρ}
    {r : Http.Response} (h : c.Thwarted n q w) : ¬c.Gets n q w r w' := by
  rintro ⟨ht, hh, hu, hr⟩
  cases h with
  | refused ha hr' hs =>
    obtain ⟨k, x, hk⟩ := ha.token_given ht
    obtain ⟨_, _, he, hs', _⟩ := hk.reply ha hr'
    cases he
    exact hs hs'
  | garbled ha hr' hd =>
    obtain ⟨k, x, hk⟩ := ha.token_given ht
    obtain ⟨_, _, he, _, hd'⟩ := hk.reply ha hr'
    cases he
    cases hd.symm.trans hd'
  | lost ha hr' =>
    obtain ⟨k, x, hk⟩ := ha.token_given ht
    obtain ⟨_, _, he, _⟩ := hk.reply ha hr'
    cases he
  | broken ht' hh' hu' hr' =>
    obtain ⟨rfl, rfl⟩ := ht.unique ht'
    cases hh.symm.trans hh'
    cases hu.symm.trans hu'
    cases hr.symm.trans hr'

section Looks

variable {c : Client ρ} {n : Instant} {s : Scope} {w w₁ : Session ρ} {P : Http.Response → Prop}

/-- The machine is valid, its zone is there, and the answer to the look for its instance is as `P`
says. -/
structure Shows (c : Client ρ) (n : Instant) (s : Scope) (w : Session ρ)
    (P : Http.Response → Prop) : Prop where
  valid : s.machine.validationError? = none
  answers : ∃ r w₁ r' w₂, c.Gets n s.zoning w r w₁ ∧ Reads s.zoning r ∧
    c.Gets n s.reading w₁ r' w₂ ∧ P r'

/-- A look for the instance needs a token that the clock cannot hold. -/
def Overruns (c : Client ρ) (n : Instant) (s : Scope) (w : Session ρ) : Prop :=
  s.machine.validationError? = none ∧ (c.Overlong n w ∨
    ∃ r w₁, c.Gets n s.zoning w r w₁ ∧ Reads s.zoning r ∧ c.Overlong n w₁)

/-- What must not pass for an absent instance, or for one that is there. -/
inductive Misleads (c : Client ρ) (n : Instant) (s : Scope) (w : Session ρ) : Prop
  | noZone {r : Http.Response} {w₁ : Session ρ} (h : c.Gets n s.zoning w r w₁) (hr : r.status = 404)
  | zoneGarbled {r : Http.Response} {w₁ : Session ρ} (h : c.Gets n s.zoning w r w₁)
      {e : Json.DecodeError} (hd : s.zoning.codec.decodeText r.content = .error e)
  | instanceGarbled {r r' : Http.Response} {w₁ w₂ : Session ρ} (h : c.Gets n s.zoning w r w₁)
      (h' : c.Gets n s.reading w₁ r' w₂) (hs : r'.isSuccess = true) {e : Json.DecodeError}
      (hd : s.reading.codec.decodeText r'.content = .error e)
  | zoneThwarted (h : c.Thwarted n s.zoning w)
  | instanceThwarted {r : Http.Response} {w₁ : Session ρ} (h : c.Gets n s.zoning w r w₁)
      (h' : c.Thwarted n s.reading w₁)

theorem shows_iff {r : Http.Response} (hv : s.machine.validationError? = none)
    (h : c.Gets n s.zoning w r w₁) (hz : Reads s.zoning r) :
    c.Shows n s w P ↔ ∃ r' w₂, c.Gets n s.reading w₁ r' w₂ ∧ P r' := by
  constructor
  · rintro ⟨_, r₀, w₀, r', w₂, h₀, _, h', hp⟩
    obtain ⟨rfl, rfl⟩ := h.unique h₀
    exact ⟨r', w₂, h', hp⟩
  · rintro ⟨r', w₂, h', hp⟩
    exact ⟨hv, r, w₁, r', w₂, h, hz, h', hp⟩

theorem Shows.gets (h : c.Shows n s w P) : ∃ r w₁, c.Gets n s.zoning w r w₁ ∧ Reads s.zoning r := by
  obtain ⟨_, r, w₁, _, _, h, hz, _⟩ := h
  exact ⟨r, w₁, h, hz⟩

/-- Nothing is shown without a zone. -/
theorem not_shows_of_zoning (h : ∀ r w₁, c.Gets n s.zoning w r w₁ → ¬Reads s.zoning r) :
    ¬c.Shows n s w P := by
  intro hshows
  obtain ⟨r, w₁, hr, hz⟩ := hshows.gets
  exact h r w₁ hr hz

theorem not_shows_of_reading {r : Http.Response} (hr : c.Gets n s.zoning w r w₁)
    (h : ∀ r' w₂, c.Gets n s.reading w₁ r' w₂ → ¬P r') : ¬c.Shows n s w P := by
  rintro ⟨_, r₀, w₀, r', w₂, hr₀, _, hr', hp⟩
  obtain ⟨rfl, rfl⟩ := hr.unique hr₀
  exact h r' w₂ hr' hp

theorem Misleads.not_shows (h : c.Misleads n s w) :
    ¬c.Shows n s w (Reads s.reading) ∧ ¬c.Shows n s w (·.status = 404) := by
  cases h with
  | noZone h hr =>
    have hnone : ∀ r w₁, c.Gets n s.zoning w r w₁ → ¬Reads s.zoning r := by
      rintro r' w' h' hz
      obtain ⟨rfl, rfl⟩ := h.unique h'
      exact hz.status_ne hr
    exact ⟨not_shows_of_zoning hnone, not_shows_of_zoning hnone⟩
  | zoneGarbled h hd =>
    have hnone : ∀ r w₁, c.Gets n s.zoning w r w₁ → ¬Reads s.zoning r := by
      rintro r' w' h' ⟨_, a, ha⟩
      obtain ⟨rfl, rfl⟩ := h.unique h'
      cases hd.symm.trans ha
    exact ⟨not_shows_of_zoning hnone, not_shows_of_zoning hnone⟩
  | zoneThwarted h =>
    have hnone : ∀ r w₁, c.Gets n s.zoning w r w₁ → ¬Reads s.zoning r :=
      fun _ _ h' => (h.not_gets h').elim
    exact ⟨not_shows_of_zoning hnone, not_shows_of_zoning hnone⟩
  | instanceGarbled h h' hs hd =>
    refine ⟨not_shows_of_reading h ?_, not_shows_of_reading h ?_⟩
    · rintro r' w' hr ⟨_, a, ha⟩
      obtain ⟨rfl, rfl⟩ := h'.unique hr
      cases hd.symm.trans ha
    · rintro r' w' hr h404
      obtain ⟨rfl, rfl⟩ := h'.unique hr
      exact Http.Response.status_ne_of_isSuccess hs h404
  | instanceThwarted h h' =>
    exact ⟨not_shows_of_reading h fun _ _ hr => (h'.not_gets hr).elim,
      not_shows_of_reading h fun _ _ hr => (h'.not_gets hr).elim⟩

end Looks

/-- What looking for an instance over the web answers. -/
structure Tells (c : Client ρ) (n : Instant) (s : Scope) (w : Session ρ)
    (x : Except ActuatorError Bool) : Prop where
  present : x = .ok true ↔ c.Shows n s w (Reads s.reading)
  absent : x = .ok false ↔ c.Shows n s w (·.status = 404)

section Tells

variable {c : Client ρ} {n : Instant} {s : Scope} {w : Session ρ}

/-- A look fails where nothing is shown. -/
theorem tells_error {e : ActuatorError} (h : ∀ P, ¬c.Shows n s w P) : c.Tells n s w (.error e) :=
  ⟨⟨nofun, fun hp => (h _ hp).elim⟩, ⟨nofun, fun hp => (h _ hp).elim⟩⟩

/-- The answer to the call for the instance decides, once the zone is there. -/
theorem Hears.tells {r : Http.Response} {w₁ w₂ : Session ρ} {x : Reply s.reading}
    (hv : s.machine.validationError? = none) (h : c.Gets n s.zoning w r w₁) (hz : Reads s.zoning r)
    (hx : c.Hears n s.reading w₁ w₂ x) : c.Tells n s w (s.found x) := by
  have hshows : ∀ P, c.Shows n s w P ↔ ∃ r' w₂, c.Gets n s.reading w₁ r' w₂ ∧ P r' :=
    fun P => shows_iff hv h hz
  cases hx with
  | @unanswered e he hnone =>
    have hfound : s.found (.error e) = .error (s.callFailed "get" e) := if_neg (by simp [he])
    rw [hfound]
    refine tells_error fun P hp => ?_
    obtain ⟨r', w₂, h', _⟩ := (hshows P).mp hp
    exact hnone r' w₂ h'
  | @answered r' h' =>
    have hdecides : ∀ P : Http.Response → Prop, c.Shows n s w P ↔ P r' := by
      intro P
      rw [hshows]
      constructor
      · rintro ⟨r₀, w₀, h₀, hp⟩
        obtain ⟨rfl, rfl⟩ := h'.unique h₀
        exact hp
      · exact fun hp => ⟨r', w₂, h', hp⟩
    cases hm : meaning s.reading r' with
    | ok i =>
      have hreads : Reads s.reading r' := meaning_eq_ok_iff.mp ⟨i, hm⟩
      refine ⟨⟨fun _ => (hdecides _).mpr hreads, fun _ => rfl⟩, ⟨nofun, fun hp => ?_⟩⟩
      exact absurd ((hdecides _).mp hp) hreads.status_ne
    | error e =>
      have hunread : ¬Reads s.reading r' := by
        intro hr
        obtain ⟨i, hi⟩ := meaning_eq_ok_iff.mpr hr
        cases hm.symm.trans hi
      have h404 := isNotFound_meaning hm
      by_cases he : e.isNotFound = true
      · have hfound : s.found (.error e) = .ok false := if_pos he
        rw [hfound]
        refine ⟨⟨nofun, fun hp => absurd ((hdecides _).mp hp) hunread⟩, ⟨fun _ => ?_, fun _ => rfl⟩⟩
        exact (hdecides _).mpr (h404.mp he)
      · have hfound : s.found (.error e) = .error (s.callFailed "get" e) := if_neg he
        rw [hfound]
        refine ⟨⟨nofun, fun hp => absurd ((hdecides _).mp hp) hunread⟩, ⟨nofun, fun hp => ?_⟩⟩
        exact absurd (h404.mpr ((hdecides _).mp hp)) he

end Tells

end Client

/-- A client of a scripted server, with tokens of its metadata server. -/
def Client.scripted : Client Http.Script :=
  ⟨"http://cloud/compute/v1", .metadataServer "http://cloud/token", Http.Script.transport⟩

/-- No token is at hand, and the server gives these answers. -/
def Session.scripted (answers : List (Option Http.Response)) : Session Http.Script :=
  ⟨none, ⟨"cloud", answers, []⟩⟩

/-- The service is on the web, and all else in memory. -/
def Collaborators.overWeb {ρ : Type} (cl : Client ρ) : Collaborators (Session ρ) MachineTable :=
  ⟨cl.service, .memory ∅, .memory, .silent, default, some "lab"⟩

namespace Collaborators

variable {ρ τ : Type} {c : Collaborators (Session ρ) τ} {cl : Client ρ} {s : Scope}
  {t : Timeline (World (Session ρ) τ)} (hservice : c.service = cl.service)

include hservice

theorem call_hears (q : Call) :
    Ends (fun e _ => e = .clock ∧ cl.Overlong t.now t.world.compute) (c.call q) t fun x u =>
      u.now = t.now ∧ cl.Hears t.now q t.world.compute u.world.compute x := by
  unfold call
  rw [hservice]
  refine (ends_within_of_halts (Client.service_ends (q := q)) fun _ _ h => h).weaken ?_
  rintro x u ⟨v, ⟨hn, hx⟩, hnow, hw⟩
  rw [hnow, hw]
  exact ⟨hn, hx⟩

theorem instanceExists_tells :
    Ends (fun e _ => e = .clock ∧ cl.Overruns t.now s t.world.compute) (c.instanceExists s) t
      fun x _ => cl.Tells t.now s t.world.compute x := by
  unfold instanceExists
  split
  next e he =>
    refine ends_pure (Client.tells_error fun P hp => ?_)
    cases he.symm.trans hp.valid
  next hinvalid =>
    have hv : s.machine.validationError? = none := by
      cases hx : s.machine.validationError? with
      | none => rfl
      | some e => exact absurd hx (hinvalid e)
    refine ends_bind ((call_hears hservice s.zoning).mono ?_ fun _ _ h => h) fun x u ⟨hn, hx⟩ => ?_
    · rintro e u ⟨he, ho⟩
      exact ⟨he, hv, .inl ho⟩
    cases x with
    | error e =>
      refine ends_pure (Client.tells_error fun P hp => ?_)
      obtain ⟨r, w₁, hr, hz⟩ := hp.gets
      exact hx.of_error w₁ hr hz
    | ok z =>
      obtain ⟨r, hr, hz⟩ := hx.of_ok
      refine ends_bind ((call_hears hservice s.reading).mono ?_ fun _ _ h => h)
        fun x v ⟨_, hx'⟩ => ?_
      · rintro e v ⟨he, ho⟩
        rw [hn] at ho
        exact ⟨he, hv, .inr ⟨r, _, hr, hz, ho⟩⟩
      rw [hn] at hx'
      have htells := hx'.tells hv hr hz
      cases x with
      | ok i => exact ends_bind ends_log fun _ _ _ => ends_pure htells
      | error e =>
        by_cases he : e.isNotFound = true
        · have hfound : s.found (.error e) = .ok false := if_pos he
          simp only [he, if_true]
          rw [hfound] at htells
          exact ends_bind ends_log fun _ _ _ => ends_pure htells
        · have hfound : s.found (.error e) = .error (s.callFailed "get" e) := if_neg he
          simp only [he]
          rw [hfound] at htells
          exact ends_pure htells

/-- Over the web, looking for an instance says that it is there exactly when the server shows it,
and that it is not exactly when the server says of it, in a zone that is there, that it is not
found. All else that the server may say or leave unsaid makes it fail, but for a token that the
clock cannot hold: then it does not end. -/
theorem exists_truthful {m : Machine} (hacq : Scope.acquire c.defaultProject m = .ok s)
    (t : Timeline (World (Session ρ) τ)) :
    Ends (fun e _ => e = .clock ∧ cl.Overruns t.now s t.world.compute) (c.perform .exists m) t
      fun y _ =>
        (y.result = .ok true ↔ cl.Shows t.now s t.world.compute (Client.Reads s.reading)) ∧
          (y.result = .ok false ↔ cl.Shows t.now s t.world.compute (·.status = 404)) ∧
          (cl.Misleads t.now s t.world.compute → ∃ e, y.result = .error e) := by
  have hreconcile : Ends (fun e _ => e = .clock ∧ cl.Overruns t.now s t.world.compute)
      (c.reconcile s .exists) (Action.exists.announced m t) fun x _ =>
        cl.Tells t.now s t.world.compute x.1 :=
    ends_bind (Scope.holding_ends (instanceExists_tells hservice) fun _ _ _ h _ _ => h)
      fun _ _ hx => ends_pure hx
  refine (perform_ends_of_discards rfl hacq hreconcile).weaken ?_
  rintro _ u ⟨x, hx, rfl⟩
  refine ⟨hx.present, hx.absent, fun hmisleads => ?_⟩
  obtain ⟨hpresent, habsent⟩ := hmisleads.not_shows
  match hresult : x.1 with
  | .ok true => exact absurd (hx.present.mp hresult) hpresent
  | .ok false => exact absurd (hx.absent.mp hresult) habsent
  | .error e => exact ⟨e, rfl⟩

omit hservice in
theorem exists_truthful_scripted :
    (overWeb .scripted).service = Client.scripted.service ∧
      Scope.acquire (some "lab") .small = .ok .small ∧
      Ends (fun e _ => e = .clock ∧ Client.scripted.Overruns .start .small (.scripted [none]))
        ((overWeb .scripted).perform .exists .small)
        (World.start (.scripted [none]) .empty) fun y _ =>
        (y.result = .ok true ↔
            Client.scripted.Shows .start .small (.scripted [none])
              (Client.Reads Scope.small.reading)) ∧
          (y.result = .ok false ↔
            Client.scripted.Shows .start .small (.scripted [none]) (·.status = 404)) ∧
          (Client.scripted.Misleads .start .small (.scripted [none]) →
            ∃ e, y.result = .error e) := by
  have hservice : (overWeb .scripted).service = Client.scripted.service := rfl
  have hacq : Scope.acquire (some "lab") .small = .ok .small := rfl
  exact ⟨hservice, hacq, exists_truthful hservice hacq (World.start (.scripted [none]) .empty)⟩

omit hservice in
/-- A token that is said to be good for longer than the clock runs ends the look without an answer,
although the server shows the zone and the instance. -/
theorem exists_halts_on_overlong_token :
    (exec ((overWeb .scripted).perform .exists .small)
      (World.start
        (.scripted
          [some ⟨200, "\x7b\"access_token\": \"t\", \"expires_in\": 18446744073709551615\x7d"⟩,
            some ⟨200, "\x7b\"name\": \"us-east1-c\"\x7d"⟩,
            some ⟨200, "\x7b\"name\": \"worker-0\"\x7d"⟩])
        .empty)).1.isOk = false := by decide +kernel

end Collaborators
end Provision
