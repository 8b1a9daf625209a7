import Provision.Proofs.Client.Turns

/-!
The token at hand is the last that was given. Whatever is replied to the requests of a run, a token
is asked for as long as none was good for longer than the margin; every call is made with the last
one; and a call that is refused one is as though it had not been made.
-/
namespace Provision

open Timed

namespace Http

/-- What a request says of who sends it. -/
def Request.authorization (q : Request) : List String :=
  (q.headers.filter fun h => h.name = "authorization").map Header.value

/-- What does not end in a blank arrives as it is. -/
theorem trimValue_eq_self {s : String} {c : Char} (h : s.toList.getLast? = some c)
    (hc : c ≠ ' ' ∧ c ≠ '\t') :
    trimValue s = s := by
  obtain ⟨cs, hcs⟩ := List.getLast?_eq_some_iff.mp h
  rw [trimValue, hcs, List.reverse_append, List.reverse_singleton, List.singleton_append,
    List.dropWhile_cons_of_neg (by simpa using hc), List.reverse_cons, List.reverse_reverse, ← hcs,
    String.ofList_toList]

end Http

namespace Client

section Headers

variable {token : String} {q : Call} {hs : List Http.Header}

theorem isSome_headers? (h : Http.isHeaderValue ("Bearer " ++ token) = true) :
    (headers? (some token) q).isSome = true := by
  simp [headers?, h]

/-- A call with a token has it in one header. -/
theorem authorization_of_headers? (h : headers? (some token) q = some hs)
    (method : String) (u : Http.Url) (body : Option String) :
    Http.Request.authorization ⟨method, u, hs, body⟩ = [Http.trimValue ("Bearer " ++ token)] := by
  have hheaders : hs = (if (body? q).isSome then [⟨"content-type", "application/json"⟩] else []) ++
      [⟨"authorization", Http.trimValue ("Bearer " ++ token)⟩] ++
        [⟨"accept", "application/json"⟩] := by
    unfold headers? at h
    split at h <;> simp_all
  rw [hheaders, Http.Request.authorization]
  split <;> simp

end Headers

section Requests

/-- The request is that of a call with a token, which arrives as it is but for blanks at its end. -/
structure Carries (endpoint : String) (q : Call) (token : String) (request : Http.Request) :
    Prop where
  method : request.method = verb q
  url : Http.Url.parse? (url endpoint q) = some request.url
  body : request.body = body? q
  authorization : request.authorization = [Http.trimValue ("Bearer " ++ token)]
  verbatim : ∀ c, token.toList.getLast? = some c → c ≠ ' ' ∧ c ≠ '\t' →
    request.authorization = ["Bearer " ++ token]

variable {endpoint token : String} {replies : Http.Replies} {n : Nat} {q : Call}

theorem Carries.ne_tokenRequest {request : Http.Request} (h : Carries endpoint q token request)
    (u : Http.Url) :
    request ≠ tokenRequest u := by
  rintro rfl
  cases h.authorization

theorem carries_of_mem_delivered {x : Http.Trip}
    (h : x ∈ (delivered endpoint replies token n q).1) :
    Carries endpoint q token x.request := by
  unfold delivered at h
  split at h
  next hs v hh hv =>
    have hx : x.request = ⟨verb q, v, hs, body? q⟩ := by
      simp only at h
      split at h <;> rw [List.mem_singleton.mp h]
    have hauthorization := authorization_of_headers? hh (verb q) v (body? q)
    rw [hx]
    refine ⟨rfl, hv, rfl, hauthorization, fun c hlast hc => ?_⟩
    have hend : ("Bearer " ++ token).toList.getLast? = some c := by
      rw [String.toList_append, List.getLast?_append, hlast, Option.some_or]
    rw [hauthorization, Http.trimValue_eq_self hend hc]
  · cases h

theorem length_delivered_le : (delivered endpoint replies token n q).1.length ≤ 1 := by
  unfold delivered
  split
  · simp only
    split <;> simp
  · simp

theorem delivered_ne_nil (htoken : Http.isHeaderValue ("Bearer " ++ token) = true)
    (hurl : (Http.Url.parse? (url endpoint q)).isSome = true) :
    (delivered endpoint replies token n q).1 ≠ [] := by
  obtain ⟨hs, hh⟩ := Option.isSome_iff_exists.mp (isSome_headers? (q := q) htoken)
  obtain ⟨v, hv⟩ := Option.isSome_iff_exists.mp hurl
  rw [delivered, hh, hv]
  simp only
  split <;> simp

end Requests

end Client

namespace Turn

variable (u : Http.Url) (t : Turn)

/-- The requests for tokens. -/
def asked : List Http.Trip := t.trips.filter fun x => x.request = Client.tokenRequest u

/-- All other requests. -/
def sent : List Http.Trip := t.trips.filter fun x => x.request ≠ Client.tokenRequest u

/-- The tokens that were given. -/
def tokens : List MetadataToken :=
  (t.asked u).filterMap fun x => (Client.granted u x.response).toOption

variable {u t} {as ds : List Http.Trip}

theorem asked_eq (h : t.trips = as ++ ds) (has : ∀ x ∈ as, x.request = Client.tokenRequest u)
    (hds : ∀ x ∈ ds, x.request ≠ Client.tokenRequest u) : t.asked u = as := by
  rw [asked, h, List.filter_append, List.filter_eq_self.mpr (by simpa using has),
    List.filter_eq_nil_iff.mpr (by simpa using hds), List.append_nil]

theorem sent_eq (h : t.trips = as ++ ds) (has : ∀ x ∈ as, x.request = Client.tokenRequest u)
    (hds : ∀ x ∈ ds, x.request ≠ Client.tokenRequest u) : t.sent u = ds := by
  rw [sent, h, List.filter_append, List.filter_eq_nil_iff.mpr (by simpa using has),
    List.filter_eq_self.mpr (by simpa using hds), List.nil_append]

end Turn

/-- The tokens that were given in a run. -/
def tokensGiven (u : Http.Url) (ts : List Turn) : List MetadataToken := ts.flatMap (Turn.tokens u)

theorem MetadataToken.lt_refreshAt (k : MetadataToken) (now : Instant) :
    now.nanos < (k.refreshAt now).nanos ↔ 60 < k.expiresIn.toNat := by
  simp only [refreshAt, tokenMargin, Instant.nanos_after, Duration.nanos_minus,
    Duration.nanos_ofSeconds,
    nanosPerSecond]
  omega

namespace Client

/-- The token at hand is the last that was given, and until then there was none good for longer than
the margin. -/
structure Kept (u : Http.Url) (now : Instant) (before : List Turn) (kept : Option CachedToken) :
    Prop where
  last : kept = before.getLast?.bind Turn.token
  latest : kept = (tokensGiven u before).getLast?.map fun k => ⟨k.value, k.refreshAt now⟩
  brief : ∀ k ∈ (tokensGiven u before).dropLast, k.expiresIn.toNat ≤ 60
  valid : ∀ k ∈ tokensGiven u before, Http.isHeaderValue ("Bearer " ++ k.value) = true

section Law

variable {u : Http.Url} {now : Instant} {before : List Turn} {kept : Option CachedToken}

theorem Kept.stale_iff (h : Kept u now before kept) :
    (kept.filter fun k => now.nanos < k.refreshAt.nanos) = none ↔
      ∀ k ∈ tokensGiven u before, k.expiresIn.toNat ≤ 60 := by
  have hbrief := h.brief
  rw [h.latest]
  obtain hnil | ⟨ks, k, hks⟩ := List.eq_nil_or_concat (tokensGiven u before)
  · simp [hnil]
  · -- Only the last token can be good for longer: after it, none was asked for.
    rw [hks, List.concat_eq_append] at hbrief ⊢
    rw [List.dropLast_concat] at hbrief
    rw [List.getLast?_concat, Option.map_some, List.forall_mem_append, and_iff_right hbrief,
      List.forall_mem_singleton,
      ← Nat.not_lt, ← k.lt_refreshAt now]
    simp

/-- What comes of a call, with what was done before it. -/
structure Lawful (endpoint : String) (u : Http.Url) (before : List Turn) (t : Turn) : Prop where
  /-- There is one request for a token at most, and none comes after the one request of the call. -/
  order : t.trips = t.asked u ++ t.sent u ∧ (t.asked u).length ≤ 1 ∧ (t.sent u).length ≤ 1
  /-- A token is asked for when none was given that is good for longer than the margin. -/
  needed : t.asked u ≠ [] ↔ ∀ k ∈ tokensGiven u before, k.expiresIn.toNat ≤ 60
  /-- Where none is given, there is nothing else to the call. -/
  refused : t.asked u ≠ [] → t.tokens u = [] →
    t.sent u = [] ∧ t.token = before.getLast?.bind Turn.token ∧ ∃ e, t.reply = .error e ∧
      e.isNotFound = false
  /-- Where one is at hand, the request of the call is made, if it has an address. -/
  made : t.asked u = [] ∨ t.tokens u ≠ [] → (Http.Url.parse? (url endpoint t.call)).isSome = true →
    t.sent u ≠ []
  /-- It carries the last token that was given. -/
  carries : ∀ x ∈ t.sent u, ∃ k, (tokensGiven u (before ++ [t])).getLast? = some k ∧
    Carries endpoint t.call k.value x.request

theorem tokensGiven_concat (before : List Turn) (t : Turn) :
    tokensGiven u (before ++ [t]) = tokensGiven u before ++ t.tokens u := by
  simp [tokensGiven]

/-- A call for which no token was given leaves the one at hand. -/
theorem Kept.concat_of_nil (h : Kept u now before kept) {t : Turn} (ht : t.tokens u = [])
    (htoken : t.token = kept) :
    Kept u now (before ++ [t]) t.token := by
  have hgiven : tokensGiven u (before ++ [t]) = tokensGiven u before := by
    rw [tokensGiven_concat, ht, List.append_nil]
  exact ⟨by simp, by rw [htoken, hgiven, h.latest], hgiven ▸ h.brief, hgiven ▸ h.valid⟩

section Cases

variable {endpoint : String} {replies : Http.Replies} {n : Nat} {q : Call}

theorem ne_tokenRequest_of_mem {token : String} {u : Http.Url} :
    ∀ x ∈ (delivered endpoint replies token n q).1, x.request ≠ tokenRequest u := fun _ hx =>
  (carries_of_mem_delivered hx).ne_tokenRequest u

/-- With a token at hand, one request is made, if the call has an address, and it carries the
token. -/
theorem sent_of_delivered {t : Turn} {token : String} (hcall : t.call = q)
    (hsent : t.sent u = (delivered endpoint replies token n q).1)
    (hvalid : Http.isHeaderValue ("Bearer " ++ token) = true) :
    (t.sent u).length ≤ 1 ∧
      ((Http.Url.parse? (url endpoint t.call)).isSome = true → t.sent u ≠ []) ∧
      ∀ x ∈ t.sent u, Carries endpoint t.call token x.request := by
  rw [hcall, hsent]
  exact ⟨length_delivered_le, delivered_ne_nil hvalid, fun x hx => carries_of_mem_delivered hx⟩

/-- With a token that is still good, just the call is made. -/
theorem lawful_of_fresh (h : Kept u now before kept) {c : CachedToken}
    (hc : (kept.filter fun k => now.nanos < k.refreshAt.nanos) = some c) :
    let t := outcome endpoint (some u) replies now n kept q
    Lawful endpoint u before t ∧ Kept u now (before ++ [t]) t.token := by
  intro t
  have ht : t = ⟨q, (delivered endpoint replies c.value n q).1,
    (delivered endpoint replies c.value n q).2, kept⟩ := by
    simp [t, outcome, credential, hc]
  have htrips : t.trips = [] ++ (delivered endpoint replies c.value n q).1 := by
    rw [ht, List.nil_append]
  have hasked : t.asked u = [] := Turn.asked_eq htrips (by simp) ne_tokenRequest_of_mem
  have hsent : t.sent u = (delivered endpoint replies c.value n q).1 :=
    Turn.sent_eq htrips (by simp) ne_tokenRequest_of_mem
  have htokens : t.tokens u = [] := by rw [Turn.tokens, hasked, List.filterMap_nil]
  obtain ⟨k, hk, hvalue⟩ : ∃ k, (tokensGiven u before).getLast? = some k ∧ k.value = c.value := by
    have hlatest := h.latest
    rw [(Option.filter_eq_some_iff.mp hc).1] at hlatest
    obtain ⟨k, hk, hkc⟩ := Option.map_eq_some_iff.mp hlatest.symm
    exact ⟨k, hk, congrArg CachedToken.value hkc⟩
  have hlast : (tokensGiven u (before ++ [t])).getLast? = some k := by
    rw [tokensGiven_concat, htokens, List.append_nil, hk]
  obtain ⟨hone, hmade, hcarries⟩ :=
    sent_of_delivered (by rw [ht]) (hvalue.symm ▸ hsent) (h.valid k (List.mem_of_getLast? hk))
  refine ⟨?_, h.concat_of_nil htokens (by rw [ht])⟩
  constructor
  case order => exact ⟨by rw [hasked, hsent, htrips], by simp [hasked], hone⟩
  case needed => simp [hasked, ← h.stale_iff, hc]
  case refused => exact fun hne => absurd hasked hne
  case made => exact fun _ => hmade
  case carries => exact fun x hx => ⟨k, hlast, hcarries x hx⟩

/-- When a token is refused, nothing else is done. -/
theorem lawful_of_refused (h : Kept u now before kept)
    (hstale : (kept.filter fun k => now.nanos < k.refreshAt.nanos) = none) {e : ComputeError}
    (he : granted u (replies n (tokenRequest u)) = .error e) :
    let t := outcome endpoint (some u) replies now n kept q
    Lawful endpoint u before t ∧ Kept u now (before ++ [t]) t.token := by
  intro t
  have ht : t = ⟨q, [⟨tokenRequest u, replies n (tokenRequest u)⟩], .error e, kept⟩ := by
    simp [t, outcome, credential, fetched, hstale, he]
  have htrips : t.trips = [⟨tokenRequest u, replies n (tokenRequest u)⟩] ++ [] := by
    rw [ht, List.append_nil]
  have hasked : t.asked u = [⟨tokenRequest u, replies n (tokenRequest u)⟩] :=
    Turn.asked_eq htrips (by simp) (by simp)
  have hsent : t.sent u = [] := Turn.sent_eq htrips (by simp) (by simp)
  have htokens : t.tokens u = [] := by simp [Turn.tokens, hasked, he, Except.toOption]
  refine ⟨?_, h.concat_of_nil htokens (by rw [ht])⟩
  constructor
  case order => exact ⟨by rw [hasked, hsent, htrips], by simp [hasked], by simp [hsent]⟩
  case needed => exact iff_of_true (by simp [hasked]) (h.stale_iff.mp hstale)
  case refused =>
    exact fun _ _ => ⟨hsent, by rw [ht, h.last], e, by rw [ht], isNotFound_of_granted he⟩
  case made => exact fun hor => absurd hor (by simp [hasked, htokens])
  case carries => simp [hsent]

/-- A token that is given is the one that the call is made with. -/
theorem lawful_of_given (h : Kept u now before kept)
    (hstale : (kept.filter fun k => now.nanos < k.refreshAt.nanos) = none) {k : MetadataToken}
    (hk : granted u (replies n (tokenRequest u)) = .ok k)
    (hvalid : Http.isHeaderValue ("Bearer " ++ k.value) = true) :
    let t := outcome endpoint (some u) replies now n kept q
    Lawful endpoint u before t ∧ Kept u now (before ++ [t]) t.token := by
  intro t
  have ht :
      t = ⟨q,
        ⟨tokenRequest u,
          replies n (tokenRequest u)⟩ :: (delivered endpoint replies k.value (n + 1) q).1,
      (delivered endpoint replies k.value (n + 1) q).2, some ⟨k.value, k.refreshAt now⟩⟩ := by
    simp [t, outcome, credential, fetched, hstale, hk]
  have htrips : t.trips =
      [⟨tokenRequest u, replies n (tokenRequest u)⟩] ++
        (delivered endpoint replies k.value (n + 1) q).1 := by
    rw [ht, List.singleton_append]
  have hasked : t.asked u = [⟨tokenRequest u, replies n (tokenRequest u)⟩] :=
    Turn.asked_eq htrips (by simp) ne_tokenRequest_of_mem
  have hsent : t.sent u = (delivered endpoint replies k.value (n + 1) q).1 :=
    Turn.sent_eq htrips (by simp) ne_tokenRequest_of_mem
  have htokens : t.tokens u = [k] := by simp [Turn.tokens, hasked, hk, Except.toOption]
  have hbrief := h.stale_iff.mp hstale
  have hgiven : tokensGiven u (before ++ [t]) = tokensGiven u before ++ [k] := by
    rw [tokensGiven_concat, htokens]
  obtain ⟨hone, hmade, hcarries⟩ := sent_of_delivered (by rw [ht]) hsent hvalid
  constructor
  · constructor
    case order => exact ⟨by rw [hasked, hsent, htrips], by simp [hasked], hone⟩
    case needed => exact iff_of_true (by simp [hasked]) hbrief
    case refused => exact fun _ hnil => absurd hnil (by simp [htokens])
    case made => exact fun _ => hmade
    case carries => exact fun x hx => ⟨k, by rw [hgiven, List.getLast?_concat], hcarries x hx⟩
  · constructor
    case last => simp
    case latest => rw [hgiven, List.getLast?_concat, ht, Option.map_some]
    case brief => rwa [hgiven, List.dropLast_concat]
    case valid =>
      rw [hgiven, List.forall_mem_append, List.forall_mem_singleton]
      exact ⟨h.valid, hvalid⟩

theorem lawful_outcome (endpoint : String) (n : Nat) (q : Call) (h : Kept u now before kept)
    (hvalid : ∀ n k, granted u (replies n (tokenRequest u)) = .ok k →
      Http.isHeaderValue ("Bearer " ++ k.value) = true) :
    let t := outcome endpoint (some u) replies now n kept q
    Lawful endpoint u before t ∧ Kept u now (before ++ [t]) t.token := by
  cases hc : kept.filter fun k => now.nanos < k.refreshAt.nanos with
  | some c => exact lawful_of_fresh h hc
  | none =>
    cases hk : granted u (replies n (tokenRequest u)) with
    | error e => exact lawful_of_refused h hc hk
    | ok k => exact lawful_of_given h hc hk (hvalid n k hk)

/-- So it is for every call, with what was done before it. -/
theorem lawful_outcomes
    (hvalid : ∀ n k, granted u (replies n (tokenRequest u)) = .ok k →
      Http.isHeaderValue ("Bearer " ++ k.value) = true)
    (qs : List Call) (h : Kept u now before kept) {mid after : List Turn} {t : Turn}
    (hts : outcomes endpoint (some u) replies now n kept qs = mid ++ t :: after) :
    Lawful endpoint u (before ++ mid) t := by
  induction qs generalizing before n kept mid with
  | nil => simp [outcomes] at hts
  | cons q qs ih =>
    obtain ⟨hlaw, hkept⟩ := lawful_outcome endpoint n q h hvalid
    cases mid with
    | nil =>
      obtain ⟨rfl, -⟩ := List.cons.inj hts
      rwa [List.append_nil]
    | cons m mid =>
      obtain ⟨rfl, hrest⟩ := List.cons.inj hts
      simpa using ih hkept hrest

end Cases

end Law

/-- Without an address to ask for tokens, there is never a request. -/
theorem outcomes_of_none {endpoint : String} {replies : Http.Replies} {now : Instant} {n : Nat}
    (qs : List Call) : ∀ t ∈ outcomes endpoint none replies now n none qs,
      t.trips = [] ∧ t.token = none ∧ ∃ e, t.reply = .error e ∧ e.isNotFound = false := by
  induction qs generalizing n with
  | nil => simp [outcomes]
  | cons q qs ih => exact List.forall_mem_cons.mpr ⟨⟨rfl, rfl, unbuilt, rfl, rfl⟩, ih⟩

/-- A run of calls from a client that has its tokens from the metadata server, with none at hand to
begin with. Whatever is replied to its requests, each call comes out as it should; and one that is
refused a token leaves all after it as they are without it. -/
theorem token_cache_law (endpoint url : String) (replies : Http.Replies)
    (t : Timeline (Session (List Http.Trip))) (ht : t.world = ⟨none, []⟩)
    (htokens : ∀ n u k, Http.Url.parse? url = some u →
      granted u (replies n (tokenRequest u)) = .ok k →
      (k.refreshAt t.now).nanos < Instant.bound ∧ Http.isHeaderValue ("Bearer " ++ k.value) = true)
      (qs : List Call) :
    ∃ ts v, exec ((answered endpoint url replies).turns qs) t = (.ok ts, v) ∧ v.now = t.now ∧
      ts.map Turn.call = qs ∧
      (∀ u, Http.Url.parse? url = some u → ∀ before turn after, ts = before ++ turn :: after →
        Lawful endpoint u before turn ∧
          (turn.asked u ≠ [] → turn.tokens u = [] → ∃ v',
            exec ((answered endpoint url
              (Http.without replies (before.flatMap Turn.trips).length)).turns
              ((before ++ after).map Turn.call)) t = (.ok (before ++ after), v'))) ∧
      (Http.Url.parse? url = none → ∀ turn ∈ ts,
        turn.trips = [] ∧ turn.token = none ∧ ∃ e, turn.reply = .error e ∧
          e.isNotFound = false) := by
  have hrun (replies' : Http.Replies) (hfrom : ∀ n, ∃ m, replies' n = replies m) (qs : List Call) :
      ∃ v, exec ((answered endpoint url replies').turns qs) t =
        (.ok (outcomes endpoint (Http.Url.parse? url) replies' t.now 0 none qs), v) ∧
          v.now = t.now := by
    have hclock (n : Nat) : Holds url replies' t.now n := fun u k hu hk => by
      obtain ⟨m, hm⟩ := hfrom n
      exact (htokens m u k hu (hm ▸ hk)).1
    obtain ⟨_, v, hexec, rfl, hv⟩ := (turns_answered endpoint qs hclock).returns
    rw [ht] at hexec
    exact ⟨v, hexec, hv⟩
  obtain ⟨v, hexec, hv⟩ := hrun replies (fun n => ⟨n, rfl⟩) qs
  refine ⟨_, v, hexec, hv, map_call_outcomes qs, fun u hu before turn after hts => ?_, fun hu => ?_⟩
  · have hkept : Kept u t.now [] none := ⟨rfl, rfl, by simp [tokensGiven], by simp [tokensGiven]⟩
    have hlaw : Lawful endpoint u before turn := by
      rw [hu] at hts
      exact lawful_outcomes (fun n k hk => (htokens n u k hu hk).2) qs hkept hts
    refine ⟨hlaw, fun hasked hnone => ?_⟩
    obtain ⟨hsent, hsame, -⟩ := hlaw.refused hasked hnone
    obtain ⟨htrips, hone, -⟩ := hlaw.order
    rw [hsent, List.append_nil] at htrips
    have hlength : turn.trips.length = 1 := by
      rw [htrips]
      exact Nat.le_antisymm hone (List.length_pos_iff.mpr hasked)
    have hlast : turn.token = (before.getLast?.map Turn.token).getD none := by
      rw [hsame]
      cases before.getLast? <;> rfl
    have hwithout := outcomes_without qs hts hlength hlast
    rw [Nat.zero_add] at hwithout
    obtain ⟨v', hexec', -⟩ :=
      hrun (Http.without replies (before.flatMap Turn.trips).length) (fun n => ⟨_, rfl⟩)
      ((before ++ after).map Turn.call)
    rw [hwithout] at hexec'
    exact ⟨v', hexec'⟩
  · rw [hu]
    exact outcomes_of_none qs

/-- The metadata server fails, gives a token that is good for no longer than the margin, and then
one that is. -/
def renewals : List (Option Http.Response) :=
  [some ⟨500, "down"⟩,
    some ⟨200, "\x7b\"access_token\":\"a\",\"expires_in\":60\x7d"⟩, some ⟨404, ""⟩,
    some ⟨200, "\x7b\"access_token\":\"b\",\"expires_in\":3600\x7d"⟩, none,
    some ⟨503, ""⟩]

theorem token_cache_law_renewals :
    let replies : Http.Replies := fun n _ => renewals.getD n none
    let calls := List.replicate 4 (Call.getZone "project" "zone")
    ∃ ts v, exec ((answered "http://compute.test" "http://metadata.test/token" replies).turns calls)
        ⟨.start, #[], ⟨none, []⟩⟩ = (.ok ts, v) ∧ v.now = .start ∧ ts.map Turn.call = calls ∧
      (∀ before turn after, ts = before ++ turn :: after →
        Lawful "http://compute.test" ⟨"http", "metadata.test", "/token", none⟩ before turn) ∧
      ts.map (fun t => t.trips.map fun x => x.request.authorization) =
        [[[]], [[], ["Bearer a"]], [[], ["Bearer b"]], [["Bearer b"]]] := by
  intro replies calls
  have hurl : Http.Url.parse? "http://metadata.test/token" = some ⟨"http", "metadata.test",
    "/token", none⟩ := by
    decide +kernel
  have hreplies : ∀ r ∈ none :: renewals,
      (granted ⟨"http", "metadata.test", "/token", none⟩ r).toOption.all (fun k =>
      decide ((k.refreshAt .start).nanos < Instant.bound) &&
        Http.isHeaderValue ("Bearer " ++ k.value)) = true := by
    decide +kernel
  have hmem (n : Nat) (q : Http.Request) : replies n q ∈ none :: renewals := by
    simp only [replies, List.getD_eq_getElem?_getD]
    cases hn : renewals[n]? with
    | none => exact List.mem_cons_self
    | some r => exact List.mem_cons_of_mem _ (List.mem_of_getElem? hn)
  have htokens : ∀ n u k, Http.Url.parse? "http://metadata.test/token" = some u →
      granted u (replies n (tokenRequest u)) = .ok k →
      (k.refreshAt .start).nanos < Instant.bound ∧
        Http.isHeaderValue ("Bearer " ++ k.value) = true := by
    intro n u k hu hk
    have hreply := hmem n (tokenRequest u)
    obtain rfl := Option.some.inj (hurl.symm.trans hu)
    have hgood := hreplies _ hreply
    rw [hk, Except.toOption, Option.all_some, Bool.and_eq_true, decide_eq_true_eq] at hgood
    exact hgood
  let t : Timeline (Session (List Http.Trip)) := ⟨.start, #[], ⟨none, []⟩⟩
  obtain ⟨ts, v, hexec, hv, hcalls, hlaw, -⟩ :=
    token_cache_law "http://compute.test" "http://metadata.test/token" replies t rfl htokens calls
  have hclock (n : Nat) : Holds "http://metadata.test/token" replies t.now n :=
    fun u k hu hk => (htokens n u k hu hk).1
  have hts := ((turns_answered "http://compute.test" calls hclock).of_run hexec).1
  refine ⟨ts, v, hexec, hv, hcalls, fun before turn after hts =>
    (hlaw _ hurl before turn after hts).1, ?_⟩
  rw [hts, hurl]
  decide +kernel

end Client

end Provision
