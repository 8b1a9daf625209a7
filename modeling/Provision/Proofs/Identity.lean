import Provision.Compute.Client
import Provision.Proofs.Address
import Provision.Proofs.Deletion
import Provision.Proofs.Names
import Provision.Proofs.OnMock
import Provision.Proofs.Validation

/-!
What tells instances apart. Provider IDs and addresses are joined by slashes from the project, the
zone and the name, of which only the name can have none itself; they tell two instances apart as far
as the joined text does.
-/
namespace Provision

section Names

/-- A character of names stands for itself in an address. -/
theorem isPlain_of_isNameChar {c : Char} (h : isNameChar c = true) : Http.Url.isPlain c = true :=
  of_isNameChar (p := fun c => Http.Url.isPlain c = true) (by decide +kernel) h

theorem slash_notMem_of_accepted {m : Machine} (h : m.validationError? = none) :
    '/' ∉ m.name.toList := by
  intro hmem
  have hc := (instanceNameFault?_eq_none.mp (Machine.accepted h).name).chars '/' hmem
  cases hc

theorem isKept_of_accepted {m : Machine} (h : m.validationError? = none) :
    Http.Url.isKept m.name.toList = true := by
  have hname := (instanceNameFault?_eq_none.mp (Machine.accepted h).name).chars
  have hdot : '.' ∉ m.name.toList := fun hmem => nomatch hname '.' hmem
  refine Http.Url.isKept_iff.mpr ⟨fun c hc => isPlain_of_isNameChar (hname c hc), ?_, ?_⟩
  · exact fun he => hdot (he ▸ List.mem_cons_self ..)
  · exact fun he => hdot (he ▸ List.mem_cons_self ..)

end Names

namespace Scope

variable {s s' : Scope}

/-- Project and zone, as addresses name them. -/
def zonePath (s : Scope) : String := s.project ++ "/zones/" ++ s.zone

/-- The requests for the instance alone. -/
def requests (s : Scope) : List Call := [s.reading, s.removal]

theorem toList_providerId (s : Scope) :
    s.providerId.toList = ("gce://".toList ++ s.place.toList) ++ '/' :: s.name.toList := by
  simp [providerId, Provision.providerId, providerScheme, place]

theorem toList_url (endpoint : String) {q : Call} (hq : q ∈ s.requests) :
    (Client.url endpoint q).toList =
      ((endpoint ++ "/projects/").toList ++ s.zonePath.toList ++ "/instances".toList) ++
        '/' :: s.name.toList := by
  have hurl : Client.url endpoint q = Client.zoneUrl endpoint s.project s.zone ++
      "/instances/" ++ s.name := by
    simp only [requests, List.mem_cons, List.not_mem_nil, or_false] at hq
    obtain rfl | rfl := hq <;> rfl
  rw [hurl]
  simp [Client.zoneUrl, zonePath]

/-- The slashes between project and zone can be told from those in them: the projects have none, or
the zones. -/
def Parted (s s' : Scope) : Prop :=
  ('/' ∉ s.project.toList ∧ '/' ∉ s'.project.toList) ∨ ('/' ∉ s.zone.toList ∧ '/' ∉ s'.zone.toList)

/-- Neither the project nor the zone is changed where it stands in an address. -/
def IsPlain (s : Scope) : Prop :=
  Http.Url.isKept s.project.toList = true ∧ Http.Url.isKept s.zone.toList = true

theorem IsPlain.parted (h : s.IsPlain) (h' : s'.IsPlain) : s.Parted s' :=
  .inl ⟨Http.Url.notMem_of_isKept h.1 rfl, Http.Url.notMem_of_isKept h'.1 rfl⟩

/-- What stands between the two may be more than one slash, as long as it begins and ends with
one. -/
theorem Parted.eq_of_joined (h : s.Parted s') (xs ys : List Char)
    (hbetween : '/' :: xs = ys ++ ['/'])
    (he : s.project.toList ++ '/' :: xs ++ s.zone.toList =
      s'.project.toList ++ '/' :: xs ++ s'.zone.toList) :
    s.project = s'.project ∧ s.zone = s'.zone := by
  have hboth : s.project.toList = s'.project.toList ∧ s.zone.toList = s'.zone.toList := by
    obtain ⟨hp, hp'⟩ | ⟨hz, hz'⟩ := h
    · simp only [List.append_assoc, List.cons_append] at he
      obtain ⟨hproject, hrest⟩ := eq_of_append_separator hp hp' he
      exact ⟨hproject, List.append_cancel_left hrest⟩
    · simp only [hbetween, List.append_assoc, List.singleton_append] at he
      simp only [← List.append_assoc] at he
      obtain ⟨hrest, hzone⟩ := eq_of_separator_append hz hz' he
      exact ⟨List.append_cancel_right hrest, hzone⟩
  exact ⟨String.toList_inj.mp hboth.1, String.toList_inj.mp hboth.2⟩

theorem Parted.eq_of_place (h : s.Parted s') (he : s.place = s'.place) :
    s.project = s'.project ∧ s.zone = s'.zone :=
  h.eq_of_joined [] [] rfl (by simpa [place] using congrArg String.toList he)

theorem Parted.eq_of_zonePath (h : s.Parted s') (he : s.zonePath = s'.zonePath) :
    s.project = s'.project ∧ s.zone = s'.zone :=
  h.eq_of_joined "zones/".toList "/zones".toList (by decide)
    (by simpa [zonePath] using congrArg String.toList he)

theorem providerId_eq_iff (hn : '/' ∉ s.name.toList) (hn' : '/' ∉ s'.name.toList) :
    s.providerId = s'.providerId ↔ s.place = s'.place ∧ s.name = s'.name := by
  rw [← String.toList_inj, toList_providerId, toList_providerId]
  constructor
  · intro he
    obtain ⟨hplace, hname⟩ := eq_of_separator_append hn hn' he
    exact ⟨String.toList_inj.mp (List.append_cancel_left hplace), String.toList_inj.mp hname⟩
  · rintro ⟨hplace, hname⟩
    rw [hplace, hname]

theorem url_eq_iff (hn : '/' ∉ s.name.toList) (hn' : '/' ∉ s'.name.toList)
    (endpoint : String) {q q' : Call} (hq : q ∈ s.requests) (hq' : q' ∈ s'.requests) :
    Client.url endpoint q = Client.url endpoint q' ↔
      s.zonePath = s'.zonePath ∧ s.name = s'.name := by
  rw [← String.toList_inj, toList_url endpoint hq, toList_url endpoint hq']
  constructor
  · intro he
    obtain ⟨hpath, hname⟩ := eq_of_separator_append hn hn' he
    have hzone := List.append_cancel_left (List.append_cancel_right hpath)
    exact ⟨String.toList_inj.mp hzone, String.toList_inj.mp hname⟩
  · rintro ⟨hpath, hname⟩
    rw [hpath, hname]

theorem key_eq_iff :
    s.key = s'.key ↔ (s.project = s'.project ∧ s.zone = s'.zone) ∧ s.name = s'.name := by
  simp only [key, Prod.mk.injEq, and_assoc]

theorem extends_url (h : s.IsPlain) (hn : Http.Url.isKept s.name.toList = true)
    (endpoint : String) {q : Call} (hq : q ∈ s.requests) :
    Http.Url.Extends endpoint.toList (Client.url endpoint q) := by
  refine ⟨"projects".toList,
    [s.project.toList, "zones".toList, s.zone.toList, "instances".toList, s.name.toList],
    ?_, by decide, List.cons_ne_nil _ _, ?_⟩
  · rw [toList_url endpoint hq]
    simp [Http.Url.joined, zonePath]
  · simp only [List.forall_mem_cons, List.not_mem_nil, false_implies, implies_true, and_true]
    exact ⟨by decide, h.1, by decide, h.2, by decide, hn⟩

/-- Provider IDs and addresses tell the instances of valid machines apart as far as what is joined
by slashes does, and so always when these slashes can be told from those in projects or in zones.
Where no part of an address is rewritten, no request for the one instance leads to the other. -/
theorem identity_distinct {m m' : Machine} {default? default?' : Option String}
    (hv : m.validationError? = none) (hv' : m'.validationError? = none)
    (hs : acquire default? m = .ok s) (hs' : acquire default?' m' = .ok s') (endpoint : String) :
    (s.providerId = s'.providerId ↔ s.place = s'.place ∧ s.name = s'.name) ∧
      (∀ q ∈ s.requests, ∀ q' ∈ s'.requests,
        Client.url endpoint q = Client.url endpoint q' ↔
          s.zonePath = s'.zonePath ∧ s.name = s'.name) ∧
      (s.key ≠ s'.key → s.Parted s' → s.providerId ≠ s'.providerId ∧
        ∀ q ∈ s.requests, ∀ q' ∈ s'.requests, Client.url endpoint q ≠ Client.url endpoint q') ∧
      (s.key ≠ s'.key → s.IsPlain → s'.IsPlain → '?' ∉ endpoint.toList → '#' ∉ endpoint.toList →
        ∀ q ∈ s.requests, ∀ q' ∈ s'.requests, ∀ u,
          Http.Url.parse? (Client.url endpoint q) = some u →
          Http.Url.parse? (Client.url endpoint q') ≠ some u) := by
  obtain rfl := machine_of_acquire hs
  obtain rfl := machine_of_acquire hs'
  have hid : s.providerId = s'.providerId ↔ s.place = s'.place ∧ s.name = s'.name :=
    providerId_eq_iff (slash_notMem_of_accepted hv) (slash_notMem_of_accepted hv')
  have hurl : ∀ q ∈ s.requests, ∀ q' ∈ s'.requests,
      Client.url endpoint q = Client.url endpoint q' ↔
        s.zonePath = s'.zonePath ∧ s.name = s'.name :=
    fun q hq q' hq' =>
      url_eq_iff (slash_notMem_of_accepted hv) (slash_notMem_of_accepted hv') endpoint hq hq'
  have hparted : s.key ≠ s'.key → s.Parted s' → ∀ q ∈ s.requests, ∀ q' ∈ s'.requests,
      Client.url endpoint q ≠ Client.url endpoint q' := by
    intro hkey hp q hq q' hq' he
    obtain ⟨hpath, hname⟩ := (hurl q hq q' hq').mp he
    exact hkey (key_eq_iff.mpr ⟨hp.eq_of_zonePath hpath, hname⟩)
  refine ⟨hid, hurl, fun hkey hp => ⟨fun he => ?_, hparted hkey hp⟩, ?_⟩
  · obtain ⟨hplace, hname⟩ := hid.mp he
    exact hkey (key_eq_iff.mpr ⟨hp.eq_of_place hplace, hname⟩)
  · intro hkey hplain hplain' hquery hfragment q hq q' hq' u hu hu'
    have hext := extends_url hplain (isKept_of_accepted hv) endpoint hq
    have hext' := extends_url hplain' (isKept_of_accepted hv') endpoint hq'
    exact hparted hkey (hplain.parted hplain') q hq q' hq'
      (hext.eq_of_parse? hext' hquery hfragment hu hu')

end Scope

/-- The small machine in a project and a zone. -/
def Machine.placed (project zone : String) : Machine :=
  { small with spec := { small.spec with project := some project, zone := zone } }

/-- Its scope, with the project as it is. -/
def Scope.placed (project zone : String) : Scope :=
  ⟨.placed project zone, Machine.small.status, project, false⟩

namespace Scope

theorem identity_distinct_placed :
    (Machine.placed "lab" "us-east1-c").validationError? = none ∧
      (Machine.placed "lab" "us-east1-d").validationError? = none ∧
      acquire none (.placed "lab" "us-east1-c") = .ok (placed "lab" "us-east1-c") ∧
      acquire none (.placed "lab" "us-east1-d") = .ok (placed "lab" "us-east1-d") ∧
      (placed "lab" "us-east1-c").providerId ≠ (placed "lab" "us-east1-d").providerId ∧
      ∀ u, Http.Url.parse? (Client.url defaultEndpoint (placed "lab" "us-east1-c").reading) =
        some u →
        Http.Url.parse? (Client.url defaultEndpoint (placed "lab" "us-east1-d").removal) ≠
          some u := by
  have hv : (Machine.placed "lab" "us-east1-c").validationError? = none := by decide +kernel
  have hv' : (Machine.placed "lab" "us-east1-d").validationError? = none := by decide +kernel
  have hs : acquire none (.placed "lab" "us-east1-c") = .ok (placed "lab" "us-east1-c") := by
    decide +kernel
  have hs' : acquire none (.placed "lab" "us-east1-d") = .ok (placed "lab" "us-east1-d") := by
    decide +kernel
  have hkey : (placed "lab" "us-east1-c").key ≠ (placed "lab" "us-east1-d").key := by decide
  have hplain : (placed "lab" "us-east1-c").IsPlain := ⟨by decide +kernel, by decide +kernel⟩
  have hplain' : (placed "lab" "us-east1-d").IsPlain := ⟨by decide +kernel, by decide +kernel⟩
  obtain ⟨_, _, hparted, hrequests⟩ := identity_distinct hv hv' hs hs' defaultEndpoint
  refine ⟨hv, hv', hs, hs', (hparted hkey (hplain.parted hplain')).1, ?_⟩
  exact hrequests hkey hplain hplain' (by decide) (by decide) _ (List.mem_cons_self ..) _
    (List.mem_cons_of_mem _ (List.mem_cons_self ..))

/-- A slash may end a project or begin a zone: the two instances are one to the provider. -/
theorem identity_shared :
    (Machine.placed "lab" "zones/us-east1-c").validationError? = none ∧
      (Machine.placed "lab/zones" "us-east1-c").validationError? = none ∧
      acquire none (.placed "lab" "zones/us-east1-c") = .ok (placed "lab" "zones/us-east1-c") ∧
      acquire none (.placed "lab/zones" "us-east1-c") = .ok (placed "lab/zones" "us-east1-c") ∧
      (placed "lab" "zones/us-east1-c").key ≠ (placed "lab/zones" "us-east1-c").key ∧
      (placed "lab" "zones/us-east1-c").providerId = (placed "lab/zones" "us-east1-c").providerId ∧
      Client.url defaultEndpoint (placed "lab" "zones/us-east1-c").reading =
        Client.url defaultEndpoint (placed "lab/zones" "us-east1-c").reading := by
  refine ⟨?_, ?_, ?_, ?_, ?_, ?_, ?_⟩ <;> decide +kernel

-- A tab is lost on the way, so that plain parts are asked for besides.
example :
    Http.Url.parse? (Client.url "http://h" (placed "lab" "us-east1-\tc").reading) =
      Http.Url.parse? (Client.url "http://h" (placed "lab" "us-east1-c").reading) := by
        decide +kernel

end Scope

end Provision
