import Provision.Compute.Client
import Provision.Proofs.Polling

/-!
The client of the web service as what it gets: when calls have a token, and when they have an
answer. Whatever the transport does, a call that is answered says what the answer means, and one
that is not fails, but never as though something was not found.
-/
namespace Provision

open Timed

/-- When a token that is had at an instant is no longer used. -/
def MetadataToken.refreshAt (t : MetadataToken) (n : Instant) : Instant :=
  n.after ((Duration.ofSeconds t.expiresIn.toNat).minus tokenMargin)

namespace Client

variable {ρ : Type}

/-- The request for a token. -/
def tokenRequest (u : Http.Url) : Http.Request :=
  ⟨"GET", u, [⟨"metadata-flavor", "Google"⟩, ⟨"accept", "*/*"⟩], none⟩

/-- A token must be asked for: calls need one, and there is none that is still good. -/
structure Asks (c : Client ρ) (n : Instant) (w : Session ρ) (u : Http.Url) : Prop where
  source : ∃ url, c.token = .metadataServer url ∧ Http.Url.parse? url = some u
  stale : w.token.filter (fun t => n.nanos < t.refreshAt.nanos) = none

/-- The metadata server gives a token. -/
structure Given (c : Client ρ) (n : Instant) (w : Session ρ) (t : MetadataToken)
    (x : ρ) : Prop where
  asked : ∃ u r, c.Asks n w u ∧ c.transport (tokenRequest u) w.transport = (some r, x) ∧
    r.isSuccess = true ∧ MetadataToken.codec.decodeText r.content = .ok t

/-- The clock cannot hold the end of the token that is given. -/
def Overlong (c : Client ρ) (n : Instant) (w : Session ρ) : Prop :=
  ∃ t x, c.Given n w t x ∧ Instant.bound ≤ (t.refreshAt n).nanos

/-- What a call has for its token, if it can have one. -/
inductive Token (c : Client ρ) (n : Instant) (w : Session ρ) : Option String → Session ρ → Prop
  | anonymous (h : c.token = .anonymous) : Token c n w none w
  | fixed {token : String} (h : c.token = .fixed token) : Token c n w (some token) w
  | kept {url : String} (h : c.token = .metadataServer url) {t : CachedToken}
      (ht : w.token.filter (fun t => n.nanos < t.refreshAt.nanos) = some t) :
      Token c n w (some t.value) w
  | fetched {t : MetadataToken} {x : ρ} (h : c.Given n w t x)
      (hn : (t.refreshAt n).nanos < Instant.bound) :
      Token c n w (some t.value) ⟨some ⟨t.value, t.refreshAt n⟩, x⟩

/-- A call has a token, and its answer comes back. -/
inductive Gets (c : Client ρ) (n : Instant) (q : Call) (w : Session ρ) (r : Http.Response) :
    Session ρ → Prop
  | answered {token : Option String} {w' : Session ρ} {hs : List Http.Header} {u : Http.Url} {x : ρ}
      (ht : c.Token n w token w') (hh : headers? token q = some hs)
      (hu : Http.Url.parse? (url c.endpoint q) = some u)
      (hr : c.transport ⟨verb q, u, hs, body? q⟩ w'.transport = (some r, x)) :
      Gets c n q w r ⟨w'.token, x⟩

/-- What an answer means. -/
def meaning (q : Call) (r : Http.Response) : Reply q :=
  if r.isSuccess then
    match q.codec.decodeText r.content with
    | .ok a => .ok a
    | .error e => .error ⟨.decode, none, .undecodable e⟩
  else .error (.ofStatus r.status (failureText r.content))

section Unique

variable {c : Client ρ} {n : Instant} {q : Call} {w w₁ w₂ : Session ρ}

/-- Only one answer can give the token. -/
theorem Given.reply {k : MetadataToken} {x y : ρ} {u : Http.Url} {r : Option Http.Response}
    (h : c.Given n w k x) (ha : c.Asks n w u)
    (hr : c.transport (tokenRequest u) w.transport = (r, y)) :
    x = y ∧ ∃ r', r = some r' ∧ r'.isSuccess = true ∧
      MetadataToken.codec.decodeText r'.content = .ok k := by
  obtain ⟨u', r', ⟨⟨_, hsource', hu'⟩, _⟩, hr', hs, hd⟩ := h.asked
  obtain ⟨_, hsource, hu⟩ := ha.source
  cases hsource.symm.trans hsource'
  cases hu.symm.trans hu'
  cases hr.symm.trans hr'
  exact ⟨rfl, r', rfl, hs, hd⟩

theorem Given.unique {k k' : MetadataToken} {x x' : ρ} (h : c.Given n w k x)
    (h' : c.Given n w k' x') :
    k = k' ∧ x = x' := by
  obtain ⟨u, r, ha, hr, _, hd⟩ := h.asked
  obtain ⟨rfl, r', hr', _, hd'⟩ := h'.reply ha hr
  cases hr'
  cases hd.symm.trans hd'
  exact ⟨rfl, rfl⟩

theorem Given.source {k : MetadataToken} {x : ρ} (h : c.Given n w k x) :
    ∃ url, c.token = .metadataServer url := by
  obtain ⟨_, _, ⟨⟨url, hsource, _⟩, _⟩, _⟩ := h.asked
  exact ⟨url, hsource⟩

theorem Given.stale {k : MetadataToken} {x : ρ} (h : c.Given n w k x) :
    w.token.filter (fun t => n.nanos < t.refreshAt.nanos) = none := by
  obtain ⟨_, _, ha, _⟩ := h.asked
  exact ha.stale

theorem Token.unique {a b : Option String} (h : c.Token n w a w₁) (h' : c.Token n w b w₂) :
    a = b ∧ w₁ = w₂ := by
  cases h with
  | anonymous h =>
    cases h' with
    | anonymous => exact ⟨rfl, rfl⟩
    | fixed h' => cases h.symm.trans h'
    | kept h' => cases h.symm.trans h'
    | fetched h' =>
      obtain ⟨_, hsource⟩ := h'.source
      cases h.symm.trans hsource
  | fixed h =>
    cases h' with
    | anonymous h' => cases h.symm.trans h'
    | fixed h' =>
      cases h.symm.trans h'
      exact ⟨rfl, rfl⟩
    | kept h' => cases h.symm.trans h'
    | fetched h' =>
      obtain ⟨_, hsource⟩ := h'.source
      cases h.symm.trans hsource
  | kept h hk =>
    cases h' with
    | anonymous h' => cases h.symm.trans h'
    | fixed h' => cases h.symm.trans h'
    | kept _ hk' =>
      cases hk.symm.trans hk'
      exact ⟨rfl, rfl⟩
    | fetched h' => cases hk.symm.trans h'.stale
  | fetched h =>
    obtain ⟨_, hsource⟩ := h.source
    cases h' with
    | anonymous h' => cases hsource.symm.trans h'
    | fixed h' => cases hsource.symm.trans h'
    | kept _ hk' => cases hk'.symm.trans h.stale
    | fetched h' =>
      obtain ⟨rfl, rfl⟩ := h.unique h'
      exact ⟨rfl, rfl⟩

theorem Gets.unique {r r' : Http.Response} (h : c.Gets n q w r w₁) (h' : c.Gets n q w r' w₂) :
    r = r' ∧ w₁ = w₂ := by
  obtain ⟨ht, hh, hu, hr⟩ := h
  obtain ⟨ht', hh', hu', hr'⟩ := h'
  obtain ⟨rfl, rfl⟩ := ht.unique ht'
  cases hh.symm.trans hh'
  cases hu.symm.trans hu'
  cases hr.symm.trans hr'
  exact ⟨rfl, rfl⟩

end Unique

section Bearer

variable {c : Client ρ} {n : Instant} {w : Session ρ} {t : Timeline (Session ρ)}
  {stop : Halt → Timeline (Session ρ) → Prop}

/-- How asking for the token of a call comes out. -/
def Bears (c : Client ρ) (n : Instant) (w w' : Session ρ) :
    Except ComputeError (Option String) → Prop
  | .ok token => c.Token n w token w'
  | .error e => e.isNotFound = false ∧ ∀ token v, ¬c.Token n w token v

/-- Where a token must be asked for and none is given, the call has none. -/
theorem bears_error {url : String} (hsource : c.token = .metadataServer url)
    (hstale : w.token.filter (fun t => n.nanos < t.refreshAt.nanos) = none) {w' : Session ρ}
    {e : ComputeError} (he : e.isNotFound = false) (hnone : ∀ k x, ¬c.Given n w k x) :
    c.Bears n w w' (.error e) := by
  refine ⟨he, fun token v h => ?_⟩
  cases h with
  | anonymous h => cases hsource.symm.trans h
  | fixed h => cases hsource.symm.trans h
  | kept _ hk => cases hstale.symm.trans hk
  | fetched h => exact hnone _ _ h

theorem send_ends (q : Http.Request) :
    Ends stop (c.send q) t fun r u => u.now = t.now ∧ ∃ x,
      c.transport q t.world.transport = (r, x) ∧ u.world = ⟨t.world.token, x⟩ := by
  unfold send
  refine (ends_update _).weaken fun r u ⟨hn, hu⟩ => ⟨hn, ?_⟩
  obtain ⟨hr, hw⟩ := Prod.mk.inj hu
  exact ⟨_, Prod.ext hr.symm rfl, hw⟩

theorem readToken_ends {u : Http.Url} {r : Http.Response} {x : ρ} (ha : c.Asks n w u)
    (hr : c.transport (tokenRequest u) w.transport = (some r, x)) (hn : t.now = n)
    (hw : t.world = ⟨w.token, x⟩) :
    Ends (fun e _ => e = .clock ∧ c.Overlong n w) (readToken u r) t fun y v =>
      v.now = n ∧ c.Bears n w v.world (y.map some) := by
  obtain ⟨url, hsource, _⟩ := ha.source
  unfold readToken
  by_cases hs : r.isSuccess = true
  · simp only [hs]
    cases hd : MetadataToken.codec.decodeText r.content with
    | error e =>
      refine ends_pure ⟨hn, bears_error hsource ha.stale rfl fun k y hk => ?_⟩
      obtain ⟨_, _, hr', _, hd'⟩ := hk.reply ha hr
      cases hr'
      cases hd.symm.trans hd'
    | ok k =>
      have hgiven : c.Given n w k x := ⟨u, r, ha, hr, hs, hd⟩
      refine ends_bind_of_exec (exec_now t)
        (ends_bind (ends_later (Q := fun i v => i = k.refreshAt n ∧
        i.nanos < Instant.bound ∧ v = t) (fun hlt => ?_) fun hge => ?_) ?_)
      · subst hn
        exact ⟨rfl, hlt, rfl⟩
      · subst hn
        exact ⟨rfl, k, x, hgiven, hge⟩
      · rintro i _ ⟨rfl, hlt, rfl⟩
        refine ends_bind (ends_update _) fun _ v ⟨hv, hu⟩ => ends_pure ⟨hv.trans hn, ?_⟩
        rw [(Prod.mk.inj hu).2, hw]
        exact .fetched hgiven hlt
  · simp only [hs]
    refine ends_bind ends_log fun _ v ⟨hv, _⟩ => ends_pure ⟨hv.trans hn, ?_⟩
    refine bears_error hsource ha.stale rfl fun k y hk => ?_
    obtain ⟨_, _, hr', hs', _⟩ := hk.reply ha hr
    cases hr'
    exact hs hs'

theorem fetchToken_ends {url : String} (hsource : c.token = .metadataServer url)
    (hstale : t.world.token.filter (fun k => t.now.nanos < k.refreshAt.nanos) = none) :
    Ends (fun e _ => e = .clock ∧ c.Overlong t.now t.world) (c.fetchToken url) t fun x u =>
      u.now = t.now ∧ c.Bears t.now t.world u.world (x.map some) := by
  unfold fetchToken
  refine ends_bind ends_log fun _ v ⟨hn, hw⟩ => ?_
  split
  next hu =>
    refine ends_pure ⟨hn, bears_error hsource hstale rfl fun k x hk => ?_⟩
    obtain ⟨_, _, ⟨⟨_, hsource', hu'⟩, _⟩, _⟩ := hk.asked
    cases hsource.symm.trans hsource'
    cases hu.symm.trans hu'
  next u hu =>
    have ha : c.Asks t.now t.world u := ⟨⟨url, hsource, hu⟩, hstale⟩
    refine ends_bind (send_ends _) fun r z ⟨hz, x, hr, hworld⟩ => ?_
    rw [hw] at hr hworld
    rw [hn] at hz
    cases r with
    | none =>
      refine ends_pure ⟨hz, bears_error hsource hstale rfl fun k y hk => ?_⟩
      obtain ⟨_, _, hr', _⟩ := hk.reply ha hr
      cases hr'
    | some r => exact readToken_ends ha hr hz hworld

theorem bearer_ends :
    Ends (fun e _ => e = .clock ∧ c.Overlong t.now t.world) c.bearer t fun x u =>
      u.now = t.now ∧ c.Bears t.now t.world u.world x := by
  unfold bearer
  cases hsource : c.token with
  | anonymous => exact ends_pure ⟨rfl, .anonymous hsource⟩
  | fixed token => exact ends_pure ⟨rfl, .fixed hsource⟩
  | metadataServer url =>
    refine ends_bind_of_exec (exec_now t) (ends_bind_of_exec (exec_world t) ?_)
    split
    next k hk => exact ends_pure ⟨rfl, .kept hsource hk⟩
    next hk => exact ends_bind (fetchToken_ends hsource hk) fun x u hu => ends_pure hu

end Bearer

section Calls

variable {c : Client ρ} {n : Instant} {q : Call} {w w' : Session ρ} {t : Timeline (Session ρ)}
  {stop : Halt → Timeline (Session ρ) → Prop}

/-- How a call comes out: as its answer means, or without an answer. -/
inductive Hears (c : Client ρ) (n : Instant) (q : Call) (w w' : Session ρ) : Reply q → Prop
  | answered {r : Http.Response} (h : c.Gets n q w r w') : Hears c n q w w' (meaning q r)
  | unanswered {e : ComputeError} (he : e.isNotFound = false) (h : ∀ r v, ¬c.Gets n q w r v) :
      Hears c n q w w' (.error e)

theorem readReply_ends (r : Http.Response) :
    Ends stop (readReply q r) t fun x u => x = meaning q r ∧ u.now = t.now ∧ u.world = t.world := by
  unfold readReply meaning
  split
  next => cases q.codec.decodeText r.content <;> exact ends_pure ⟨rfl, rfl, rfl⟩
  next => exact ends_bind ends_log fun _ u hu => ends_pure ⟨rfl, hu⟩

theorem request_ends {token : Option String} (ht : c.Token n w token t.world) :
    Ends stop (c.request token q) t fun x u => u.now = t.now ∧ c.Hears n q w u.world x := by
  unfold request
  split
  next hs u hh hu =>
    refine ends_bind (send_ends _) fun r v ⟨hn, x, hr, hw⟩ => ?_
    cases r with
    | none =>
      refine ends_pure ⟨hn, .unanswered rfl fun r' v' h => ?_⟩
      obtain ⟨ht', hh', hu', hr'⟩ := h
      obtain ⟨rfl, rfl⟩ := ht.unique ht'
      cases hh.symm.trans hh'
      cases hu.symm.trans hu'
      cases hr.symm.trans hr'
    | some r =>
      refine (readReply_ends r).weaken fun y z ⟨hy, hz, hworld⟩ => ⟨hz.trans hn, ?_⟩
      rw [hworld, hw, hy]
      exact .answered ⟨ht, hh, hu, hr⟩
  next hnone =>
    refine ends_pure ⟨rfl, .unanswered rfl fun r v h => ?_⟩
    obtain ⟨ht', hh, hu, _⟩ := h
    obtain ⟨rfl, _⟩ := ht.unique ht'
    exact hnone _ _ hh hu

/-- A call is answered for as its answer means, or fails for want of an answer; and only a token
that the clock cannot hold stops it. -/
theorem service_ends :
    Ends (fun e _ => e = .clock ∧ c.Overlong t.now t.world) (c.service q) t fun x u =>
      u.now = t.now ∧ c.Hears t.now q t.world u.world x := by
  unfold service
  refine ends_bind ends_log fun _ v ⟨hn, hw⟩ => ?_
  rw [← hn, ← hw]
  refine ends_bind bearer_ends fun y u ⟨hu, hy⟩ => ?_
  cases y with
  | error e =>
    refine ends_pure ⟨hu, .unanswered hy.1 fun r z h => ?_⟩
    obtain ⟨ht, _⟩ := h
    exact hy.2 _ _ ht
  | ok token => exact (request_ends hy).weaken fun x z ⟨hz, hx⟩ => ⟨hz.trans hu, hx⟩

end Calls

end Client
end Provision
