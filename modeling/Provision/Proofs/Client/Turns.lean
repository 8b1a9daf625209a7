import Provision.Proofs.Client

/-!
Calls one after another, by a client that has its tokens from the metadata server, when requests are
answered by how many came before. What comes of each call is a function of the token at hand, and of
the replies to the requests that are made for it.
-/
namespace Provision

open Timed

namespace Http

/-- A request and what came of it. -/
structure Trip where
  request : Request
  response : Option Response
  deriving DecidableEq

/-- What is answered to a request after so many others. -/
abbrev Replies : Type := Nat → Request → Option Response

/-- Answers requests by how many came before, and keeps them with what came of them. -/
def answered (replies : Replies) : Transport (List Trip) := fun q ts =>
  (replies ts.length q, ts ++ [⟨q, replies ts.length q⟩])

/-- The replies but for the one of a number. -/
def without (replies : Replies) (i : Nat) : Replies := fun n => replies (if n < i then n else n + 1)

end Http

/-- A call, the requests that were made for it, its reply, and the token at hand after it. -/
structure Turn where
  call : Call
  trips : List Http.Trip
  reply : Reply call
  token : Option CachedToken

namespace Client

/-- Makes a call and keeps what came of it. -/
def turn (c : Client (List Http.Trip)) (q : Call) : Timed (Session (List Http.Trip)) Turn := do
  let before ← Timed.world
  let reply ← c.service q
  let after ← Timed.world
  return ⟨q, after.transport.drop before.transport.length, reply, after.token⟩

/-- Makes calls one after another. -/
def turns (c : Client (List Http.Trip)) : List Call → Timed (Session (List Http.Trip)) (List Turn)
  | [] => return []
  | q :: qs => do
    let t ← c.turn q
    let ts ← c.turns qs
    return t :: ts

/-- The token that a reply of the metadata server gives, or why it gives none. -/
def granted (u : Http.Url) : Option Http.Response → Except ComputeError MetadataToken
  | none => .error (unsent u)
  | some r =>
    if r.isSuccess then
      match MetadataToken.codec.decodeText r.content with
      | .error _ => .error ⟨.decode, none, .badToken u.text⟩
      | .ok k => .ok k
    else
      .error (.ofKind .permissionDenied
        ("metadata server returned " ++ toString r.status ++ ": " ++ r.content))

theorem isNotFound_of_granted {u : Http.Url} {r : Option Http.Response} {e : ComputeError}
    (h : granted u r = .error e) : e.isNotFound = false := by
  unfold granted at h
  split at h
  · cases h
    rfl
  split at h
  · split at h <;> cases h
    rfl
  · cases h
    rfl

/-- The token of a call or why it has none, the requests that were made for it, and the token at
hand then. -/
structure Credential where
  token : Except ComputeError String
  trips : List Http.Trip
  kept : Option CachedToken

section Outcomes

variable (endpoint : String) (source : Option Http.Url) (replies : Http.Replies) (now : Instant)

/-- The request that is made of a call with a token after `n` others, if one can be, and the reply
to the call. -/
def delivered (token : String) (n : Nat) (q : Call) : List Http.Trip × Reply q :=
  match headers? (some token) q, Http.Url.parse? (url endpoint q) with
  | some hs, some v =>
    let request := ⟨verb q, v, hs, body? q⟩
    match replies n request with
    | none => ([⟨request, none⟩], .error (unsent v))
    | some r => ([⟨request, some r⟩], meaning q r)
  | _, _ => ([], .error unbuilt)

/-- What is had for a token after `n` requests when one is asked for. -/
def fetched (n : Nat) (kept : Option CachedToken) : Credential :=
  match source with
  | none => ⟨.error unbuilt, [], kept⟩
  | some u =>
    match granted u (replies n (tokenRequest u)) with
    | .error e => ⟨.error e, [⟨tokenRequest u, replies n (tokenRequest u)⟩], kept⟩
    | .ok k =>
      ⟨.ok k.value, [⟨tokenRequest u, replies n (tokenRequest u)⟩], some ⟨k.value, k.refreshAt now⟩⟩

/-- What a call has for a token after `n` requests. -/
def credential (n : Nat) (kept : Option CachedToken) : Credential :=
  match kept.filter fun k => now.nanos < k.refreshAt.nanos with
  | some k => ⟨.ok k.value, [], kept⟩
  | none => fetched source replies now n kept

/-- What comes of a call after `n` requests, with the token at hand. -/
def outcome (n : Nat) (kept : Option CachedToken) (q : Call) : Turn :=
  let c := credential source replies now n kept
  match c.token with
  | .error e => ⟨q, c.trips, .error e, c.kept⟩
  | .ok token =>
    let d := delivered endpoint replies token (n + c.trips.length) q
    ⟨q, c.trips ++ d.1, d.2, c.kept⟩

/-- What comes of calls one after another. -/
def outcomes (n : Nat) (kept : Option CachedToken) : List Call → List Turn
  | [] => []
  | q :: qs =>
    let t := outcome endpoint source replies now n kept q
    t :: outcomes (n + t.trips.length) t.token qs

end Outcomes

section Runs

variable (endpoint : String) {url : String} {replies : Http.Replies} {q : Call}
  {t : Timeline (Session (List Http.Trip))}

/-- A client with tokens from the metadata server, for which requests are answered by their
number. -/
def answered (url : String) (replies : Http.Replies) : Client (List Http.Trip) :=
  ⟨endpoint, .metadataServer url, Http.answered replies⟩

theorem send_answered (request : Http.Request) :
    Ends never ((answered endpoint url replies).send request) t fun r v => v.now = t.now ∧
      r = replies t.world.transport.length request ∧
      v.world = ⟨t.world.token,
        t.world.transport ++ [⟨request, replies t.world.transport.length request⟩]⟩ :=
  (send_ends request).weaken fun r v ⟨hn, x, hr, hw⟩ => by
    obtain ⟨rfl, rfl⟩ := Prod.mk.inj hr
    exact ⟨hn, rfl, hw⟩

theorem request_answered (token : String) :
    Ends never ((answered endpoint url replies).request (some token) q) t fun x v => v.now = t.now ∧
      x = (delivered endpoint replies token t.world.transport.length q).2 ∧
      v.world = ⟨t.world.token,
        t.world.transport ++ (delivered endpoint replies token t.world.transport.length q).1⟩ := by
  have hendpoint : (answered endpoint url replies).endpoint = endpoint := rfl
  rw [request, hendpoint, delivered]
  cases headers? (some token) q with
  | none => exact ends_pure ⟨rfl, rfl, by simp⟩
  | some hs =>
    cases Http.Url.parse? (Client.url endpoint q) with
    | none => exact ends_pure ⟨rfl, rfl, by simp⟩
    | some v =>
      refine ends_bind (send_answered endpoint _) ?_
      rintro r w ⟨hn, hr, hw⟩
      simp only [← hr] at hw ⊢
      cases r with
      | none => exact ends_pure ⟨hn, rfl, hw⟩
      | some r =>
        refine (readReply_ends r).weaken ?_
        rintro x z ⟨hx, hz, hzw⟩
        exact ⟨hz.trans hn, hx, hzw.trans hw⟩

theorem readToken_answered {u : Http.Url} {r : Http.Response}
    (hclock : ∀ k, granted u (some r) = .ok k → (k.refreshAt t.now).nanos < Instant.bound) :
    Ends never (readToken u r) t fun x v => v.now = t.now ∧
      match granted u (some r) with
      | .error e => x = .error e ∧ v.world = t.world
      | .ok k =>
        x = .ok k.value ∧ v.world = ⟨some ⟨k.value, k.refreshAt t.now⟩, t.world.transport⟩ := by
  unfold readToken
  rw [granted] at hclock ⊢
  by_cases hs : r.isSuccess = true
  · simp only [hs, if_true, Bool.not_true, Bool.false_eq_true, if_false] at hclock ⊢
    cases hd : MetadataToken.codec.decodeText r.content with
    | error e => exact ends_pure ⟨rfl, rfl, rfl⟩
    | ok k =>
      refine ends_bind_of_exec (exec_now t) ?_
      have hlater :
          Ends never (later t.now ((Duration.ofSeconds k.expiresIn.toNat).minus tokenMargin)) t
            fun i v =>
              i = k.refreshAt t.now ∧ v = t :=
        ends_later (fun _ => ⟨rfl, rfl⟩) fun hge =>
          absurd (hclock k (by rw [hd])) (Nat.not_lt.mpr hge)
      refine ends_bind hlater ?_
      rintro i _ ⟨rfl, rfl⟩
      refine ends_bind (ends_update _) ?_
      rintro _ v ⟨hv, hu⟩
      exact ends_pure ⟨hv, rfl, (Prod.mk.inj hu).2⟩
  · simp only [hs, Bool.not_false, if_true]
    refine ends_bind ends_log ?_
    rintro _ v ⟨hv, hw⟩
    exact ends_pure ⟨hv, rfl, hw⟩

/-- The clock can hold the end of the token that comes of the next request, if it asks for one. -/
def Holds (url : String) (replies : Http.Replies) (now : Instant) (n : Nat) : Prop :=
  ∀ u k, Http.Url.parse? url = some u → granted u (replies n (tokenRequest u)) = .ok k →
    (k.refreshAt now).nanos < Instant.bound

theorem fetchToken_answered (hclock : Holds url replies t.now t.world.transport.length) :
    Ends never ((answered endpoint url replies).fetchToken url) t fun x v =>
      let c := fetched (Http.Url.parse? url) replies t.now t.world.transport.length t.world.token
      v.now = t.now ∧ x = c.token ∧ v.world = ⟨c.kept, t.world.transport ++ c.trips⟩ := by
  unfold fetchToken fetched
  refine ends_bind ends_log fun _ v ⟨hn, hw⟩ => ?_
  cases hu : Http.Url.parse? url with
  | none => exact ends_pure ⟨hn, rfl, by rw [hw, List.append_nil]⟩
  | some u =>
    have hgranted := hclock u
    refine ends_bind (send_answered endpoint (tokenRequest u)) fun r z ⟨hz, hr, hzw⟩ => ?_
    rw [hw] at hr hzw
    simp only
    rw [← hr] at hgranted hzw ⊢
    cases r with
    | none => exact ends_pure ⟨hz.trans hn, rfl, hzw⟩
    | some r =>
      rw [← hn, ← hz] at hgranted ⊢
      refine (readToken_answered fun k => hgranted k hu).weaken fun x y ⟨hy, hx⟩ => ⟨hy, ?_⟩
      split at hx <;> simp_all

theorem bearer_answered (hclock : Holds url replies t.now t.world.transport.length) :
    Ends never (answered endpoint url replies).bearer t fun x v =>
      let c := credential (Http.Url.parse? url) replies t.now t.world.transport.length t.world.token
      v.now = t.now ∧ x = c.token.map some ∧ v.world = ⟨c.kept, t.world.transport ++ c.trips⟩ := by
  simp only [bearer, answered, credential]
  refine ends_bind_of_exec (exec_now t) (ends_bind_of_exec (exec_world t) ?_)
  cases t.world.token.filter fun k => t.now.nanos < k.refreshAt.nanos with
  | some k => exact ends_pure ⟨rfl, rfl, by simp⟩
  | none =>
    refine ends_bind (fetchToken_answered endpoint hclock) ?_
    rintro x v ⟨hn, hx, hw⟩
    exact ends_pure ⟨hn, by rw [hx], hw⟩

theorem service_answered (q : Call) (hclock : Holds url replies t.now t.world.transport.length) :
    Ends never ((answered endpoint url replies).service q) t fun x v =>
      v.now = t.now ∧ ∃ trips token,
      v.world = ⟨token, t.world.transport ++ trips⟩ ∧
        outcome endpoint (Http.Url.parse? url) replies t.now t.world.transport.length
          t.world.token q =
          ⟨q, trips, x, token⟩ := by
  unfold service outcome
  refine ends_bind ends_log fun _ v ⟨hn, hw⟩ => ?_
  rw [← hn, ← hw] at hclock ⊢
  refine ends_bind (bearer_answered endpoint hclock) fun x z ⟨hz, hx, hzw⟩ => ?_
  simp only
  cases hc : credential (Http.Url.parse? url) replies v.now v.world.transport.length
    v.world.token with
  | mk token trips kept =>
    rw [hc] at hx hzw
    cases token with
    | error e =>
      subst hx
      exact ends_pure ⟨hz, _, _, hzw, rfl⟩
    | ok token =>
      subst hx
      refine (request_answered endpoint token).weaken fun y w ⟨hw, hy, hww⟩ => ⟨hw.trans hz, ?_⟩
      rw [hzw, List.length_append] at hy hww
      exact ⟨_, _, hww.trans (by rw [List.append_assoc]), by rw [hy]⟩

theorem turn_answered (q : Call) (hclock : Holds url replies t.now t.world.transport.length) :
    Ends never ((answered endpoint url replies).turn q) t fun x v =>
      x = outcome endpoint (Http.Url.parse? url) replies t.now t.world.transport.length
        t.world.token q ∧
        v.now = t.now ∧ v.world = ⟨x.token, t.world.transport ++ x.trips⟩ := by
  unfold turn
  refine ends_bind_of_exec (exec_world t) ?_
  refine ends_bind (service_answered endpoint q hclock) fun x v ⟨hn, trips, token, hw, hx⟩ => ?_
  refine ends_bind_of_exec (exec_world v) (ends_pure ?_)
  rw [hx, hw, List.drop_left]
  exact ⟨rfl, hn, rfl⟩

/-- Calls one after another have all their replies, and come out as they should. -/
theorem turns_answered (qs : List Call) (hclock : ∀ n, Holds url replies t.now n) :
    Ends never ((answered endpoint url replies).turns qs) t fun ts v =>
      ts = outcomes endpoint (Http.Url.parse? url) replies t.now t.world.transport.length
        t.world.token qs ∧
        v.now = t.now := by
  induction qs generalizing t with
  | nil => exact ends_pure ⟨rfl, rfl⟩
  | cons q qs ih =>
    refine ends_bind (turn_answered endpoint q (hclock _)) fun x v ⟨hx, hn, hw⟩ => ?_
    rw [← hn] at hclock
    refine ends_bind (ih hclock) fun xs w ⟨hxs, hw'⟩ => ends_pure ⟨?_, hw'.trans hn⟩
    rw [hxs, outcomes, ← hx, hn, hw, List.length_append]

end Runs

section Without

variable {endpoint : String} {source : Option Http.Url} {replies replies' : Http.Replies}
  {now : Instant} {n n' i : Nat} {kept : Option CachedToken} {q : Call}

/-- Only the reply to a request that is made counts. -/
theorem delivered_congr {token : String}
    (h : (delivered endpoint replies token n q).1 = [] ∨ replies n = replies' n') :
    delivered endpoint replies token n q = delivered endpoint replies' token n' q := by
  unfold delivered at h ⊢
  split
  next hs v hh hv =>
    simp only [hh, hv] at h
    obtain h | h := h
    · split at h <;> cases h
    · rw [h]
  · rfl

theorem fetched_congr
    (h : (fetched source replies now n kept).trips = [] ∨ replies n = replies' n') :
    fetched source replies now n kept = fetched source replies' now n' kept := by
  unfold fetched at h ⊢
  split
  · rfl
  next u =>
    simp only at h
    obtain h | h := h
    · split at h <;> cases h
    · rw [h]

theorem credential_congr
    (h : (credential source replies now n kept).trips = [] ∨ replies n = replies' n') :
    credential source replies now n kept = credential source replies' now n' kept := by
  unfold credential at h ⊢
  split
  · rfl
  next hc =>
    rw [hc] at h
    exact fetched_congr h

theorem exists_trips_eq (endpoint : String) (source : Option Http.Url) (replies : Http.Replies)
    (now : Instant) (n : Nat) (kept : Option CachedToken) (q : Call) :
    ∃ ds, (outcome endpoint source replies now n kept q).trips =
      (credential source replies now n kept).trips ++ ds := by
  unfold outcome
  simp only
  split
  · exact ⟨[], (List.append_nil _).symm⟩
  · exact ⟨_, rfl⟩

/-- Only the replies to requests that are made count. -/
theorem outcome_congr
    (h : ∀ m < (outcome endpoint source replies now n kept q).trips.length,
      replies (n + m) = replies' (n' + m)) :
    outcome endpoint source replies now n kept q =
      outcome endpoint source replies' now n' kept q := by
  have hc : credential source replies now n kept = credential source replies' now n' kept := by
    by_cases hnil : (credential source replies now n kept).trips = []
    · exact credential_congr (.inl hnil)
    · obtain ⟨ds, hds⟩ := exists_trips_eq endpoint source replies now n kept q
      refine credential_congr (.inr (h 0 ?_))
      rw [hds, List.length_append]
      exact Nat.add_pos_left (List.length_pos_iff.mpr hnil) _
  unfold outcome at h ⊢
  rw [← hc]
  cases htoken : (credential source replies now n kept).token with
  | error e => simp only [htoken]
  | ok token =>
    simp only [htoken] at h ⊢
    have hd :
        delivered endpoint replies token
            (n + (credential source replies now n kept).trips.length) q =
          delivered endpoint replies' token
            (n' + (credential source replies now n kept).trips.length) q := by
      by_cases hnil : (delivered endpoint replies token
        (n + (credential source replies now n kept).trips.length) q).1 = []
      · exact delivered_congr (.inl hnil)
      · refine delivered_congr (.inr (h _ ?_))
        rw [List.length_append]
        exact Nat.lt_add_of_pos_right (List.length_pos_iff.mpr hnil)
    rw [hd]

theorem outcomes_congr (qs : List Call) (h : ∀ m, replies (n + m) = replies' (n' + m)) :
    outcomes endpoint source replies now n kept qs =
      outcomes endpoint source replies' now n' kept qs := by
  induction qs generalizing n n' kept with
  | nil => rfl
  | cons q qs ih =>
    rw [outcomes, outcomes, ← outcome_congr fun m _ => h m]
    exact congrArg (List.cons _) (ih fun m => by rw [Nat.add_assoc, h, Nat.add_assoc])

theorem call_outcome : (outcome endpoint source replies now n kept q).call = q := by
  unfold outcome
  simp only
  split <;> rfl

theorem map_call_outcomes (qs : List Call) :
    (outcomes endpoint source replies now n kept qs).map Turn.call = qs := by
  induction qs generalizing n kept with
  | nil => rfl
  | cons q qs ih => rw [outcomes, List.map_cons, call_outcome, ih]

/-- A call with one request that leaves the token at hand might as well not have been made, if that
request had not been answered either. -/
theorem outcomes_without (qs : List Call) {before after : List Turn} {t : Turn}
    (hts : outcomes endpoint source replies now n kept qs = before ++ t :: after)
    (hone : t.trips.length = 1) (hkept : t.token = (before.getLast?.map Turn.token).getD kept) :
    outcomes endpoint source (Http.without replies (n + (before.flatMap Turn.trips).length))
      now n kept ((before ++ after).map Turn.call) = before ++ after := by
  induction before generalizing n kept qs with
  | nil =>
    cases qs with
    | nil => cases hts
    | cons q qs =>
      obtain ⟨rfl, hafter⟩ := List.cons.inj hts
      rw [hone, hkept] at hafter
      have hcalls : after.map Turn.call = qs := hafter ▸ map_call_outcomes qs
      rw [List.nil_append, hcalls]
      -- From here on, each request comes one earlier.
      refine (outcomes_congr qs fun m => ?_).trans hafter
      rw [Http.without, if_neg (by simp), Nat.add_right_comm]
  | cons b before ih =>
    cases qs with
    | nil => cases hts
    | cons q qs =>
      obtain ⟨rfl, hrest⟩ := List.cons.inj hts
      rw [List.getLast?_cons, Option.map_some, Option.getD_some] at hkept
      have hbefore := ih qs hrest (hkept.trans ?_)
      · rw [List.cons_append, List.map_cons, call_outcome, outcomes, ← outcome_congr fun m hm => ?_]
        · rw [List.flatMap_cons, List.length_append, ← Nat.add_assoc, hbefore]
        · rw [Http.without, if_pos]
          rw [List.flatMap_cons, List.length_append]
          omega
      · cases before.getLast? <;> rfl

end Without

end Client

end Provision
