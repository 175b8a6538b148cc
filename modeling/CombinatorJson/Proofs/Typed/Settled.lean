import CombinatorJson.Proofs.Typed.Parts

set_option autoImplicit false

namespace CombinatorJson

namespace Json

variable {schema : Schema}

theorem settledItems_of_decodeItems {item : Shape} {index : Nat} {decoders : List Decoder}
    {values : List Datum} (settled : ∀ decoder ∈ decoders, ∀ value, decoder item = .ok value →
      value.settled schema item = value)
    (decoded : decodeItems item index decoders = .ok values) :
    Datum.settledItems schema item values = values := by
  induction decoders generalizing index values with
  | nil =>
    cases decoded
    rfl
  | cons decoder rest ih =>
    obtain ⟨here, later⟩ := List.forall_mem_cons.mp settled
    obtain ⟨value, others, value_ok, rest_ok, rfl⟩ := decodeItems_cons_eq_ok_iff.mp decoded
    rw [Datum.settledItems, here value value_ok, ih later rest_ok]

theorem settled_of_decodeEntries {shape : Shape} {pairs : List (String × Decoder)}
    {entries : List (String × Datum)} (settled : ∀ pair ∈ pairs, ∀ value, pair.2 shape = .ok value →
      value.settled schema shape = value)
    (decoded : decodeEntries shape pairs = .ok entries) :
    ∀ entry ∈ entries, entry.2.settled schema shape = entry.2 := by
  induction pairs generalizing entries with
  | nil =>
    cases decoded
    simp
  | cons pair rest ih =>
    obtain ⟨here, later⟩ := List.forall_mem_cons.mp settled
    obtain ⟨value, others, value_ok, rest_ok, rfl⟩ := decodeEntries_cons_eq_ok_iff.mp decoded
    exact List.forall_mem_cons.mpr ⟨here value value_ok, ih later rest_ok⟩

theorem settledFields_of_decodeFields {members : Members Decoder} {shapes : Members Shape}
    {fields : List (String × Datum)} (settled : ∀ member ∈ members, ∀ shape value,
      member.2 shape = .ok value → value.settled schema shape = value)
    (decoded : decodeFields members shapes = .ok fields) :
    Datum.settledFields schema shapes fields = fields := by
  induction shapes generalizing fields with
  | nil =>
    cases decoded
    rfl
  | cons field rest ih =>
    obtain ⟨decoder, value, others, found, value_ok, rest_ok, rfl⟩ :=
      decodeFields_cons_eq_ok_iff.mp decoded
    have here := settled _ (Members.mem_of_find? found) _ _ value_ok
    rw [Datum.settledFields, here, ih rest_ok]

theorem mem_of_mapOfEntries {order : KeyOrder} {entries members : List (String × Datum)}
    (built : mapOfEntries order entries = .map members) :
    ∀ member ∈ members, member ∈ entries := by
  cases order with
  | insertion => exact fun _ known => Members.mem_of_mem_ofPairs (Datum.map.inj built ▸ known)
  | sorted => exact fun _ known => Members.mem_of_mem_sortedOfPairs (Datum.map.inj built ▸ known)

theorem mapOfEntries_idem {order : KeyOrder} {entries members : List (String × Datum)}
    (built : mapOfEntries order entries = .map members) :
    mapOfEntries order members = .map members := by
  cases order with
  | insertion =>
    rw [← Datum.map.inj built, mapOfEntries, Members.ofPairs_of_unique (Members.unique_ofPairs _)]
  | sorted =>
    rw [← Datum.map.inj built, mapOfEntries,
      Members.sortedOfPairs_of_sorted (Members.sorted_sortedOfPairs _)]

theorem settled_mapOfEntries {order : KeyOrder} {shape : Shape} {entries : List (String × Datum)}
    (settled : ∀ entry ∈ entries, entry.2.settled schema shape = entry.2) :
    (mapOfEntries order entries).settled schema (.map order shape) = mapOfEntries order entries := by
  obtain ⟨members, built⟩ : ∃ members, mapOfEntries order entries = .map members := by
    cases order <;> exact ⟨_, rfl⟩
  have kept : members.map (fun member => (member.1, member.2.settled schema shape)) = members := by
    rw [map_eq_self_iff]
    intro member known
    rw [settled member (mem_of_mapOfEntries built member known)]
  rw [built, Datum.settled, Datum.settledEntries_eq_map, kept, mapOfEntries_idem built]

def Settles (schema : Schema) (json : Json) : Prop :=
  ∀ shape value, json.decode schema shape = .ok value → value.settled schema shape = value

theorem settles_of_parts {json : Json}
    (items_ok : ∀ items, json = .array items → ∀ item ∈ items, Settles schema item)
    (members_ok : ∀ members, json = .object members → ∀ member ∈ members, Settles schema member.2) :
    Settles schema json := by
  intro shape value decoded
  -- An option asks the same tree again; all other shapes go on to its parts.
  induction shape generalizing value with
  | option inner ih =>
    rw [decode_option] at decoded
    split at decoded
    · cases decoded
      rfl
    · obtain ⟨held, held_ok, rfl⟩ := map_eq_ok_iff.mp decoded
      exact congrArg Datum.present (ih held held_ok)
  | list item =>
    cases json with
    | array items =>
      rw [decode_list] at decoded
      obtain ⟨values, values_ok, rfl⟩ := map_eq_ok_iff.mp decoded
      refine congrArg Datum.list (settledItems_of_decodeItems ?_ values_ok)
      exact List.forall_mem_map.mpr fun part known => items_ok items rfl part known item
    | _ => contradiction
  | map order shape =>
    cases json with
    | object members =>
      rw [decode_map] at decoded
      obtain ⟨entries, entries_ok, rfl⟩ := map_eq_ok_iff.mp decoded
      refine settled_mapOfEntries (settled_of_decodeEntries ?_ entries_ok)
      exact List.forall_mem_map.mpr fun part known => members_ok members rfl part known shape
    | _ => contradiction
  | record name =>
    cases json with
    | object members =>
      rw [decode_record] at decoded
      obtain ⟨fields, fields_ok, rfl⟩ := map_eq_ok_iff.mp decoded
      refine congrArg Datum.record (settledFields_of_decodeFields ?_ fields_ok)
      exact List.forall_mem_map.mpr fun part known => members_ok members rfl part known
    | _ => contradiction
  | _ => cases value <;> rfl

theorem settled_of_decode (json : Json) : Settles schema json := by
  induction json using inductionOn with
  | array items ih =>
    exact settles_of_parts (fun _ same => array.inj same ▸ ih) (fun _ other => nomatch other)
  | object members ih =>
    exact settles_of_parts (fun _ other => nomatch other) (fun _ same => object.inj same ▸ ih)
  | _ => exact settles_of_parts (fun _ other => nomatch other) (fun _ other => nomatch other)

end Json

end CombinatorJson
