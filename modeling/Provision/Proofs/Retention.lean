import Provision.Proofs.Json.Retention
import Provision.Proofs.Manifest

/-!
What a new status leaves of a manifest that was written by others. A manifest is read as a machine
and written again, so that what there is a field for stays, and nothing else.
-/
namespace Provision

open Json Json.Codec Json.Field

section Schemas

def ObjectMeta.schema : Schema := .record [("name", .value), ("namespace", .value)]

theorem ObjectMeta.keeps_codec : codec.Keeps schema :=
  keeps_record
    (.cons (keeps_required keeps_string) <| .cons (keeps_withDefault keeps_string) (.nil _))
    (by decide) fun _ => rfl

def ServiceAccount.schema : Schema := .record [("email", .value), ("scopes", .list .value)]

theorem ServiceAccount.keeps_codec (kind : String) : (codec kind).Keeps schema :=
  keeps_record
    (.cons (keeps_required keeps_string) <| .cons (keeps_withDefault keeps_string.list) (.nil _))
    (by decide) fun _ => rfl

def MetadataItem.schema : Schema := .record [("key", .value), ("value", .value)]

theorem MetadataItem.keeps_codec (kind : String) : (codec kind).Keeps schema :=
  keeps_record
    (.cons (keeps_required keeps_string) <| .cons (keeps_optional keeps_string) (.nil _))
    (by decide) fun _ => rfl

def DiskSpec.schema : Schema :=
  .record [("autoDelete", .value), ("boot", .value), ("sizeGb", .value), ("type", .value),
    ("image", .value),
    ("labels", .dict .value)]

theorem DiskSpec.keeps_codec : codec.Keeps schema :=
  keeps_record
    (.cons (keeps_withDefault keeps_bool) <| .cons (keeps_withDefault keeps_bool) <|
      .cons (keeps_required keeps_int64) <| .cons (keeps_required keeps_string) <|
      .cons (keeps_withDefault keeps_string) <|
        .cons (keeps_withDefault keeps_string.dict) (.nil _))
    (by decide) fun _ => rfl

def InterfaceSpec.schema : Schema := .record [("network", .value), ("subnetwork", .value)]

theorem InterfaceSpec.keeps_codec : codec.Keeps schema :=
  keeps_record
    (.cons (keeps_withDefault keeps_string) <| .cons (keeps_withDefault keeps_string) (.nil _))
    (by decide) fun _ => rfl

def secretNameSchema : Schema := .record [("name", .value)]

theorem keeps_secretNameCodec : secretNameCodec.Keeps secretNameSchema :=
  keeps_record (.cons (keeps_required keeps_string) (.nil _)) (by decide) fun _ => rfl

def MachineSpec.schema : Schema :=
  .record [("zone", .value), ("region", .value), ("projectID", .value), ("machineType", .value),
    ("labels", .dict .value), ("tags", .list .value), ("canIPForward", .value),
    ("deletionProtection", .value),
    ("disks", .list DiskSpec.schema), ("networkInterfaces", .list InterfaceSpec.schema),
    ("serviceAccounts", .list ServiceAccount.schema), ("metadata", .list MetadataItem.schema),
    ("userDataSecret", secretNameSchema)]

theorem MachineSpec.keeps_codec : codec.Keeps schema :=
  keeps_record
    (.cons (keeps_required keeps_string) <| .cons (keeps_withDefault keeps_string) <|
      .cons (keeps_optional keeps_string) <| .cons (keeps_required keeps_string) <|
      .cons (keeps_withDefault keeps_string.dict) <| .cons (keeps_withDefault keeps_string.list) <|
      .cons (keeps_withDefault keeps_bool) <| .cons (keeps_withDefault keeps_bool) <|
      .cons (keeps_withDefault DiskSpec.keeps_codec.list) <|
      .cons (keeps_withDefault InterfaceSpec.keeps_codec.list) <|
      .cons (keeps_withDefault (ServiceAccount.keeps_codec _).list) <|
      .cons (keeps_withDefault (MetadataItem.keeps_codec _).list) <|
      .cons (keeps_optional keeps_secretNameCodec) (.nil _))
    (by decide) fun _ => rfl

/-- The places of a manifest that there are fields for, apart from the status. -/
def Machine.schema : Schema :=
  .record [("metadata", ObjectMeta.schema), ("spec", MachineSpec.schema)]

theorem Machine.keeps_codec : codec.Keeps schema :=
  keeps_record
    (.cons (keeps_required ObjectMeta.keeps_codec) <|
      .cons (keeps_required MachineSpec.keeps_codec) (.nil _))
    (by decide) fun _ => rfl

end Schemas

section Texts

/-- The value that bytes are a text of. -/
def Json.ofBytes? (bs : Bytes) : Option Json :=
  match String.fromUTF8? ⟨bs.toArray⟩ with
  | some s => parse s
  | none => readSymbols (Symbol.ofBytes bs)

theorem Json.exists_ofBytes? {α : Type} {c : Codec α} {bs : Bytes} {a : α}
    (h : c.decodeBytes bs = .ok a) :
    ∃ v, ofBytes? bs = some v ∧ c.decode v = .ok a := by
  have hsymbols : ∃ xs, readSymbols xs = ofBytes? bs ∧ c.decodeSymbols xs = .ok a := by
    cases hs : String.fromUTF8? ⟨bs.toArray⟩ with
    | some s =>
      simp only [decodeBytes, hs] at h
      exact ⟨Symbol.ofText s, by simp only [ofBytes?, hs, parse], h⟩
    | none =>
      simp only [decodeBytes, hs] at h
      exact ⟨Symbol.ofBytes bs, by simp only [ofBytes?, hs], h⟩
  obtain ⟨xs, hxs, h⟩ := hsymbols
  rw [← hxs]
  unfold decodeSymbols at h
  split at h
  · cases h
  next v hv =>
    refine ⟨v, hv, ?_⟩
    cases hdecode : c.decode v with
    | error e =>
      rw [hdecode] at h
      cases h
    | ok b =>
      rw [hdecode] at h
      cases h
      rfl

theorem Json.ofBytes?_toUTF8 (s : String) : ofBytes? s.toUTF8.toList = parse s := by
  have htext : String.fromUTF8? s.toUTF8 = some s := dif_pos s.isValidUTF8
  rw [ofBytes?, mk_toArray_toList, htext]

end Texts

namespace Manifest

/-- The value that a manifest is a text of. -/
def value? (path : String) (t : Tree) : Option Json :=
  match t.read path with
  | .ok content => Json.ofBytes? content
  | .error _ => none

theorem value?_content (m : Machine) : Json.ofBytes? (content m) = some (Machine.codec.encode m) :=
  (Json.ofBytes?_toUTF8 _).trans
    (parse_of_standsFor (standsFor_write (Machine.faithful_codec.textual m) (.indented 0)))

/-- At the places apart from the status, the status makes no difference. -/
theorem at?_encode_withStatus {p : List Step} {v x y : Json}
    (hx : Machine.schema.get? p v = some x) {m : Machine}
    (hy : (Machine.codec.encode m).at? p = some y) (hkept : x.KeptAs y) (st : MachineStatus) :
    ∃ y, (Machine.codec.encode { m with status := st }).at? p = some y ∧ x.KeptAs y := by
  have hencode (m : Machine) : Machine.codec.encode m = .object
      [(.ok "metadata", ObjectMeta.codec.encode m.metadata),
        (.ok "spec", MachineSpec.codec.encode m.spec),
        (.ok "status", MachineStatus.codec.encode m.status)] := rfl
  rw [hencode] at hy
  rw [hencode]
  match p with
  | [] =>
    obtain rfl := Option.some.inj hy
    refine ⟨_, rfl, ?_⟩
    cases hkept with
    | same | members => exact .members _ _
    | record => exact .record _ _
  | .item i :: p => cases hx
  | .member k :: p =>
    obtain ⟨s, hs, -⟩ := Option.bind_eq_some_iff.mp hx
    have hk : "status" ≠ k := by
      rintro rfl
      cases hs
    refine ⟨y, ?_, hkept⟩
    simpa [at?, member?, hk] using hy

theorem status_write_retains (path : String) (t t' : Tree) (m : Machine)
    (htemporary : ¬t.IsLink (temporary path)) (hupdate : updateStatus path m t = (.ok (), t')) :
    ∃ v v', value? path t = some v ∧ value? path t' = some v' ∧
      ∀ p x, Machine.schema.get? p v = some x → x ≠ .null →
        ∃ y, v'.at? p = some y ∧ x.KeptAs y := by
  have hupdates := updateStatus_updates htemporary m
  rw [hupdate] at hupdates
  obtain ⟨stored, dir, name, last, hload, -, hstands, rfl⟩ := hupdates.exists_of_ok
  obtain ⟨bs, hread, hdecode⟩ := load_eq_ok_iff.mp hload
  obtain ⟨v, hv, hvalue⟩ := Json.exists_ofBytes? hdecode
  refine ⟨v, Machine.codec.encode { stored with status := m.status }, ?_, ?_,
    fun p x hx hnull => ?_⟩
  · rw [value?, hread, ← hv]
  · rw [value?, hstands.read_replaced]
    exact value?_content _
  · obtain ⟨y, hy, hkept⟩ := Machine.keeps_codec hvalue hx hnull
    exact at?_encode_withStatus hx hy hkept m.status

section Losses

/-- A manifest with what there is no field for, a member of null, a name that comes twice, and a
record as a list. -/
def annotated : Json :=
  .object
    [(.ok "metadata", .object [(.ok "name", text "worker-0"), (.ok "namespace", text "default"),
        (.ok "annotations", .object [(.ok "owner", text "storage")])]),
      (.ok "spec", .object [(.ok "zone", text "us-east1-c"), (.ok "projectID", .null),
        (.ok "machineType", text "n1-standard-1"),
        (.ok "labels", .object [(.ok "role", text "db"), (.ok "role", text "web")]),
        (.ok "disks",
          .array [.array [.bool true, .bool true, .number (.ofInt 16), text "pd-ssd",
            text "images/rhcos"]]),
        (.ok "networkInterfaces", .array [.object [(.ok "network", text "default")]])])]

/-- The machine of that manifest. -/
def labelled : Machine :=
  { Machine.small with spec := { Machine.small.spec with labels := .ofList [("role", "web")] } }

/-- The manifest in its file. -/
def annotatedFile : Tree := directoryOf annotated.compact.toUTF8.toList

/-- A manifest, and a link to it where it would be written first. -/
def linked : Tree :=
  ⟨[(["machine.json"], .file (content .small)), (["machine.tmp"], .link "machine.json")], []⟩

theorem textual_array_iff {vs : List Json} : (Json.array vs).Textual ↔ ∀ v ∈ vs, v.Textual :=
  ⟨fun h => by cases h; assumption, .array⟩

theorem textual_object_iff {ms : List (Str × Json)} :
    (Json.object ms).Textual ↔ (∀ m ∈ ms, m.1 ≠ .error .encoding) ∧ ∀ m ∈ ms, m.2.Textual :=
  ⟨fun h => by cases h; exact ⟨by assumption, by assumption⟩, fun h => .object h.1 h.2⟩

theorem textual_annotated : annotated.Textual := by
  simp [annotated, textual_array_iff, textual_object_iff, textual_text, Textual.null,
    Textual.bool, Textual.number]

theorem value?_annotatedFile : value? "machine.json" annotatedFile = some annotated := by
  rw [value?, annotatedFile, read_directoryOf]
  exact (Json.ofBytes?_toUTF8 _).trans
    (parse_of_standsFor (standsFor_write textual_annotated .compact))

theorem load_annotatedFile : load "machine.json" annotatedFile = .ok labelled := by
  refine load_eq_ok_iff.mpr ⟨_, read_directoryOf _, (decodeBytes_toUTF8 _ _).trans ?_⟩
  exact (decodeText_eq_ok_iff (standsFor_write textual_annotated .compact)).mpr rfl

theorem walk_of_self_link {t : Tree} {name text : String} {here : Location}
    (hname : Path.IsName name) (hsize : name.utf8ByteSize ≤ Tree.maxName)
    (hfind : t.find? (here ++ [name]) = some (.link text)) (horigin : Tree.origin here text = here)
    (htext : Path.names text = [name]) (links : Nat) :
    t.walk .content links here [name] = .error .tooManyLinks := by
  induction links with
  | zero =>
    rw [Tree.walk_name hname hsize (.inr (.inl rfl)), hfind]
    rfl
  | succ links ih =>
    rw [Tree.walk_name hname hsize (.inr (.inl rfl)), hfind]
    simpa [horigin, htext] using ih

theorem read_of_self_link {t : Tree} (hhome : t.home = [])
    (hfind : t.find? ["machine.json"] = some (.link "machine.json")) :
    t.read "machine.json" = .error .tooManyLinks := by
  have hnames : Path.names "machine.json" = ["machine.json"] := by decide +kernel
  have horigin : Tree.origin [] "machine.json" = [] := by simp [Tree.origin]
  have hloop : t.walk .content Tree.maxLinks [] ["machine.json"] = .error .tooManyLinks :=
    walk_of_self_link (by decide) (by decide) hfind horigin hnames _
  rw [Tree.read, Tree.node, (endsIn_manifest hhome).isProper.resolve, hnames, hhome, horigin, hloop]

theorem find?_linked (l : Location) :
    linked.find? l = if l = ["machine.json"] then some (.file (content .small))
      else if l = ["machine.tmp"] then some (.link "machine.json") else none := by
  simp only [linked, Tree.find?, List.lookup_cons, List.lookup_nil]
  split
  · simp_all
  · split <;> simp_all

theorem load_linked : load "machine.json" linked = .ok .small :=
  load_eq_ok_iff.mpr ⟨_, (endsIn_manifest rfl).read (by rw [find?_linked]; rfl),
    decodeBytes_content _⟩

theorem resolve_linked : linked.resolve .creation (temporary "machine.json") =
    .ok (.node ["machine.json"] (.file (content .small))) := by
  have hnames : Path.names (temporary "machine.json") = ["machine.tmp"] := by decide +kernel
  have hnames' : Path.names "machine.json" = ["machine.json"] := by decide +kernel
  have horigin (path : String) : Tree.origin [] path = [] := by simp [Tree.origin]
  have hlink : linked.find? ([] ++ ["machine.tmp"]) = some (.link "machine.json") := by
    rw [find?_linked]; rfl
  have hfile : linked.find? ([] ++ ["machine.json"]) = some (.file (content .small)) := by
    rw [find?_linked]; rfl
  rw [(endsIn_temporary (t := linked) rfl).isProper.resolve, hnames,
    show linked.home = [] from rfl, horigin,
    show Tree.maxLinks = 39 + 1 from rfl,
      Tree.walk_name (by decide) (by decide) (.inr (.inl rfl)), hlink]
  simp only [reduceCtorEq, and_false, if_false]
  rw [horigin, hnames', List.append_nil,
    Tree.walk_name (by decide) (by decide) (.inr (.inl rfl)), hfile]
  rfl

/-- The new manifest is written through the link, and then the link takes its place. -/
theorem updateStatus_linked : updateStatus "machine.json" .small linked =
    (.ok (), ((linked.put ["machine.json"] (.file (content .small))).erase ["machine.tmp"]).put
      ["machine.json"] (.link "machine.json")) := by
  have hwrite : linked.write (temporary "machine.json") (content .small) =
      .ok (linked.put ["machine.json"] (.file (content .small))) := by
    rw [Tree.write, resolve_linked]
  have hrename :=
    (endsIn_temporary (t := linked.put ["machine.json"] (.file (content .small))) rfl).rename
    (endsIn_manifest rfl) (n := .link "machine.json") (by rw [Tree.find?_put, find?_linked]; rfl)
    (by rw [Tree.find?_put]; simp)
  unfold updateStatus
  rw [load_linked]
  simp only [ne_eq, not_true_eq_false, if_false]
  unfold replace
  simp only
  rw [← temporary, hwrite]
  simp only [hrename]
  rfl

/-- The update succeeds, and what there is no field for is gone: an unknown member, one of null, the
first of two of one name, and the form of a record that was a list. And a link to the manifest, in
the place where it would be written first, takes its place, and nothing can be read any more. -/
theorem status_write_drops :
    (∃ t' v', updateStatus "machine.json" labelled annotatedFile = (.ok (), t') ∧
      value? "machine.json" annotatedFile = some annotated ∧ value? "machine.json" t' = some v' ∧
      (annotated.at? [.member "metadata", .member "annotations"] =
        some (.object [(.ok "owner", text "storage")]) ∧
        v'.at? [.member "metadata", .member "annotations"] = none) ∧
      (annotated.at? [.member "spec", .member "projectID"] = some .null ∧
        v'.at? [.member "spec", .member "projectID"] = none) ∧
      (annotated.at? [.member "spec", .member "labels"] =
          some (.object [(.ok "role", text "db"), (.ok "role", text "web")]) ∧
        v'.at? [.member "spec", .member "labels"] = some (.object [(.ok "role", text "web")])) ∧
      (∃ vs, annotated.at? [.member "spec", .member "disks", .item 0] = some (.array vs)) ∧
      ∃ ms, v'.at? [.member "spec", .member "disks", .item 0] = some (.object ms)) ∧
    ∃ t', updateStatus "machine.json" .small linked = (.ok (), t') ∧
      t'.read "machine.json" = .error .tooManyLinks := by
  have hstands := stands_directoryOf annotated.compact.toUTF8.toList
  refine ⟨⟨_, Machine.codec.encode labelled, hstands.updateStatus_eq load_annotatedFile rfl,
    value?_annotatedFile, ?_,
    ⟨rfl, rfl⟩, ⟨rfl, rfl⟩, ⟨rfl, rfl⟩, ⟨_, rfl⟩, _, rfl⟩, ?_⟩
  · rw [value?, hstands.read_replaced]
    exact value?_content labelled
  · exact ⟨_, updateStatus_linked, read_of_self_link rfl (by rw [Tree.find?_put]; rfl)⟩

/-- The size of the disk that was written as a list. -/
theorem status_write_retains_annotated :
    ¬annotatedFile.IsLink (temporary "machine.json") ∧
      ∃ t', updateStatus "machine.json" labelled annotatedFile = (.ok (), t') ∧
        ∃ v' y, value? "machine.json" t' = some v' ∧
          v'.at? [.member "spec", .member "disks", .item 0, .member "sizeGb"] = some y ∧
          (Json.number (.ofInt 16)).KeptAs y := by
  have hlink : ¬annotatedFile.IsLink (temporary "machine.json") := not_isLink_directoryOf _ _
  have hupdate :=
    (stands_directoryOf annotated.compact.toUTF8.toList).updateStatus_eq load_annotatedFile
    (m := labelled) rfl
  obtain ⟨v, v', hv, hv', hkept⟩ :=
    status_write_retains "machine.json" annotatedFile _ labelled hlink hupdate
  obtain rfl : annotated = v := Option.some.inj (value?_annotatedFile.symm.trans hv)
  obtain ⟨y, hy, hsize⟩ :=
    hkept [.member "spec", .member "disks", .item 0, .member "sizeGb"] _ rfl nofun
  exact ⟨hlink, _, hupdate, v', y, hv', hy, hsize⟩

end Losses

end Manifest

end Provision
