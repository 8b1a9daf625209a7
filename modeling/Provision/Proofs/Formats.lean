import Provision.Compute.Operation
import Provision.Machine.Store
import Provision.Proofs.Json.Faithful
import Provision.Proofs.Json.Tolerance

/-!
The texts of machines, and of what is exchanged with the provider. Each holds just the value that
was written into it, and what a later form of a record adds to a text does no harm.
-/
namespace Provision

open Json Json.Codec Json.Field

theorem ObjectMeta.faithful_codec : ObjectMeta.codec.Faithful :=
  faithful_record
    (.cons (faithful_required faithful_string) <| .cons (faithful_withDefault faithful_string) .nil)
    (by decide) fun _ => rfl

theorem ServiceAccount.faithful_codec (kind : String) : (ServiceAccount.codec kind).Faithful :=
  faithful_record
    (.cons (faithful_required faithful_string) <|
      .cons (faithful_withDefault faithful_string.list) .nil)
    (by decide) fun _ => rfl

theorem MetadataItem.faithful_codec (kind : String) : (MetadataItem.codec kind).Faithful :=
  faithful_record
    (.cons (faithful_required faithful_string) <|
      .cons (faithful_optional faithful_string nofun) .nil)
    (by decide) fun _ => rfl

section Machines

theorem DiskSpec.faithful_codec : DiskSpec.codec.Faithful :=
  faithful_record
    (.cons (faithful_withDefault faithful_bool) <| .cons (faithful_withDefault faithful_bool) <|
      .cons (faithful_required faithful_int64) <| .cons (faithful_required faithful_string) <|
      .cons (faithful_withDefault faithful_string) <|
        .cons (faithful_withDefault faithful_string.dict) .nil)
    (by decide) fun _ => rfl

theorem InterfaceSpec.faithful_codec : InterfaceSpec.codec.Faithful :=
  faithful_record
    (.cons (faithful_withDefault faithful_string) <|
      .cons (faithful_withDefault faithful_string) .nil)
    (by decide) fun _ => rfl

theorem faithful_secretNameCodec : secretNameCodec.Faithful :=
  faithful_record (.cons (faithful_required faithful_string) .nil) (by decide) fun _ => rfl

theorem MachineSpec.faithful_codec : MachineSpec.codec.Faithful :=
  faithful_record
    (.cons (faithful_required faithful_string) <| .cons (faithful_withDefault faithful_string) <|
      .cons (faithful_optional faithful_string nofun) <|
        .cons (faithful_required faithful_string) <|
      .cons (faithful_withDefault faithful_string.dict) <|
        .cons (faithful_withDefault faithful_string.list) <|
      .cons (faithful_withDefault faithful_bool) <| .cons (faithful_withDefault faithful_bool) <|
      .cons (faithful_withDefault DiskSpec.faithful_codec.list) <|
      .cons (faithful_withDefault InterfaceSpec.faithful_codec.list) <|
      .cons (faithful_withDefault (ServiceAccount.faithful_codec _).list) <|
      .cons (faithful_withDefault (MetadataItem.faithful_codec _).list) <|
      .cons (faithful_optional faithful_secretNameCodec nofun) .nil)
    (by decide) fun _ => rfl

theorem AddressKind.faithful_codec : AddressKind.codec.Faithful :=
  faithful_enumeration fun
    | .internal | .external => rfl

theorem NodeAddress.faithful_codec : NodeAddress.codec.Faithful :=
  faithful_record
    (.cons (faithful_required AddressKind.faithful_codec) <|
      .cons (faithful_required faithful_string) .nil)
    (by decide) fun _ => rfl

theorem ErrorReason.faithful_codec : ErrorReason.codec.Faithful :=
  faithful_enumeration fun
    | .invalidConfiguration | .createError | .updateError | .deleteError => rfl

theorem ProviderStatus.faithful_codec : ProviderStatus.codec.Faithful :=
  faithful_record
    (.cons (faithful_optional faithful_string nofun) <|
      .cons (faithful_optional faithful_string nofun) .nil)
    (by decide) fun _ => rfl

theorem MachineStatus.faithful_codec : MachineStatus.codec.Faithful :=
  faithful_record
    (.cons (faithful_withDefault NodeAddress.faithful_codec.list) <|
      .cons (faithful_optional faithful_string nofun) <|
      .cons (faithful_withDefault ProviderStatus.faithful_codec) <|
      .cons (faithful_optional ErrorReason.faithful_codec nofun) <|
      .cons (faithful_optional faithful_string nofun) .nil)
    (by decide) fun _ => rfl

theorem Machine.faithful_codec : Machine.codec.Faithful :=
  faithful_record
    (.cons (faithful_required ObjectMeta.faithful_codec) <|
      .cons (faithful_required MachineSpec.faithful_codec) <|
      .cons (faithful_withDefault MachineStatus.faithful_codec) .nil)
    (by decide) fun _ => rfl

end Machines

section Resources

theorem DiskSource.faithful_codec : DiskSource.codec.Faithful :=
  faithful_record
    (.cons (faithful_of_isNone (faithful_numberText _)) <|
      .cons (faithful_omitting faithful_string) <|
      .cons (faithful_omitting faithful_string.dict) <|
        .cons (faithful_omitting faithful_string) .nil)
    (by decide) fun _ => rfl

theorem Disk.faithful_codec : Disk.codec.Faithful :=
  faithful_record
    (.cons (faithful_withDefault faithful_bool) <| .cons (faithful_withDefault faithful_bool) <|
      .cons (faithful_optional DiskSource.faithful_codec nofun) .nil)
    (by decide) fun _ => rfl

theorem AccessConfig.faithful_codec : AccessConfig.codec.Faithful :=
  faithful_record
    (.cons (faithful_omitting faithful_string) <| .cons (faithful_omitting faithful_string) <|
      .cons (faithful_omitting faithful_string) .nil)
    (by decide) fun _ => rfl

theorem NetworkInterface.faithful_codec : NetworkInterface.codec.Faithful :=
  faithful_record
    (.cons (faithful_omitting faithful_string) <| .cons (faithful_omitting faithful_string) <|
      .cons (faithful_omitting faithful_string) <|
      .cons (faithful_withDefault AccessConfig.faithful_codec.list) .nil)
    (by decide) fun _ => rfl

theorem faithful_itemsCodec {α : Type} (record field : String) {c : Codec α} (h : c.Faithful) :
    (itemsCodec record field c).Faithful :=
  faithful_record (.cons (faithful_withDefault h.list) .nil) (by simp [Fields.names]) fun _ => rfl

theorem Instance.faithful_codec : Instance.codec.Faithful :=
  faithful_record
    (.cons (faithful_required faithful_string) <|
      .cons (faithful_of_isNone (faithful_numberText _)) <|
      .cons (faithful_omitting faithful_string) <| .cons (faithful_withDefault faithful_bool) <|
      .cons (faithful_withDefault faithful_bool) <|
        .cons (faithful_omitting faithful_string.dict) <|
      .cons (faithful_optional (faithful_itemsCodec _ _ faithful_string) nofun) <|
      .cons (faithful_omitting Disk.faithful_codec.list) <|
      .cons (faithful_omitting NetworkInterface.faithful_codec.list) <|
      .cons (faithful_omitting (ServiceAccount.faithful_codec _).list) <|
      .cons (faithful_optional (faithful_itemsCodec _ _ (MetadataItem.faithful_codec _)) nofun) <|
      .cons (faithful_omitting faithful_string) <| .cons (faithful_omitting faithful_string) .nil)
    (by decide) fun _ => rfl

theorem Zone.faithful_codec : Zone.codec.Faithful :=
  faithful_record
    (.cons (faithful_required faithful_string) <| .cons (faithful_withDefault faithful_string) <|
      .cons (faithful_withDefault faithful_string) .nil)
    (by decide) fun _ => rfl

theorem OperationState.faithful_codec : OperationState.codec.Faithful :=
  faithful_enumeration fun
    | .pending | .running | .done => rfl

theorem OperationFault.faithful_codec : OperationFault.codec.Faithful :=
  faithful_record
    (.cons (faithful_withDefault faithful_string) <| .cons (faithful_omitting faithful_string) <|
      .cons (faithful_withDefault faithful_string) .nil)
    (by decide) fun _ => rfl

theorem Operation.faithful_codec : Operation.codec.Faithful :=
  faithful_record
    (.cons (faithful_required faithful_string) <| .cons (faithful_withDefault faithful_string) <|
      .cons (faithful_required OperationState.faithful_codec) <|
        .cons (faithful_omitting faithful_string) <|
      .cons (faithful_optional (faithful_itemsCodec _ _ OperationFault.faithful_codec) nofun) .nil)
    (by decide) fun _ => rfl

end Resources

section Manifests

theorem toList_loop_eq (bs : ByteArray) (i : Nat) (r : List UInt8) :
    ByteArray.toList.loop bs i r = r.reverse ++ bs.data.toList.drop i := by
  fun_induction ByteArray.toList.loop bs i r with
  | case1 i r h ih =>
    have hi : i < bs.data.toList.length := h
    have hget : bs.get! i = bs.data.toList[i] := getElem!_pos bs.data i h
    rw [ih, List.reverse_cons, List.append_assoc, List.singleton_append,
      hget, ← List.drop_eq_getElem_cons hi]
  | case2 i r h =>
    have hi : bs.data.toList.length ≤ i := Nat.le_of_not_lt h
    rw [List.drop_eq_nil_of_le hi, List.append_nil]

theorem mk_toArray_toList (bs : ByteArray) : ByteArray.mk bs.toList.toArray = bs := by
  rw [ByteArray.toList, toList_loop_eq]
  rfl

/-- The bytes of a text are read as the text. -/
theorem decodeBytes_toUTF8 {α : Type} (c : Codec α) (s : String) :
    c.decodeBytes s.toUTF8.toList = c.decodeText s := by
  have htext : String.fromUTF8? s.toUTF8 = some s := dif_pos s.isValidUTF8
  rw [decodeBytes, mk_toArray_toList, htext]

/-- A manifest holds the machine that was written into it, on however many lines. -/
theorem Manifest.decodeBytes_content (m : Machine) :
    Machine.codec.decodeBytes (content m) = .ok m :=
  (decodeBytes_toUTF8 _ _).trans (Machine.faithful_codec.inverts.decodeText_encodeLines m)

end Manifests

/-- Nothing is lost in the texts of machines and of what the provider is told and tells, nor in a
manifest. -/
theorem formats_invert :
    (Machine.codec.Inverts ∧ MachineStatus.codec.Inverts ∧ Instance.codec.Inverts ∧
      Operation.codec.Inverts ∧
      Zone.codec.Inverts) ∧
    ∀ m, Machine.codec.decodeBytes (Manifest.content m) = .ok m :=
  ⟨⟨Machine.faithful_codec.inverts, MachineStatus.faithful_codec.inverts,
    Instance.faithful_codec.inverts,
    Operation.faithful_codec.inverts, Zone.faithful_codec.inverts⟩, Manifest.decodeBytes_content⟩

/-- Machines, instances, operations and zones are the same in another order of members, and with
others among them. -/
theorem formats_tolerate :
    Machine.codec.Tolerates ∧ Instance.codec.Tolerates ∧ Operation.codec.Tolerates ∧
      Zone.codec.Tolerates :=
  ⟨tolerates _, tolerates _, tolerates _, tolerates _⟩

/-- A member that comes in deep inside an instance. -/
example (kind v : Json) :
    Instance.codec.Edit
      (.object [(.ok "disks",
        .array [.object [(.ok "initializeParams", .object [(.ok "diskType", kind)])]])])
      (.object [(.ok "disks", .array [.object
        [(.ok "initializeParams", .object [(.ok "diskType", kind), (.ok "diskName", v)])]])]) := by
  have hsource : DiskSource.codec.Edit (.object [(.ok "diskType", kind)])
      (.object [(.ok "diskType", kind), (.ok "diskName", v)]) :=
    .insert (by decide) v [(.ok "diskType", kind)] []
  have hdisk :
      Disk.codec.Edit (.object [(.ok "initializeParams", .object [(.ok "diskType", kind)])])
      (.object [(.ok "initializeParams", .object [(.ok "diskType", kind), (.ok "diskName", v)])]) :=
    .member (.there (by decide) (.there (by decide) .here)) (.option hsource) [] []
  have hdisks : (Field.Serves (omitting "disks" Disk.codec.list []) Instance.fields) :=
    .there (by decide) <| .there (by decide) <| .there (by decide) <| .there (by decide) <|
    .there (by decide) <| .there (by decide) <| .there (by decide) .here
  exact .member hdisks (.item hdisk [] []) [] []

end Provision
