import CombinatorJson.Proofs.Grammar.Denoted
import CombinatorJson.Proofs.Typed.Pointwise
import CombinatorJson.Proofs.Typed.RoundTrip

set_option autoImplicit false

namespace CombinatorJson

variable {schema : Schema} {shape : Shape}

namespace Json

theorem exists_mapOfEntries (order : KeyOrder) (entries : List (String × Datum)) :
    ∃ members, mapOfEntries order entries = .map members := by
  cases order <;> exact ⟨_, rfl⟩

theorem unique_mapOfEntries {order : KeyOrder} {entries members : List (String × Datum)}
    (built : mapOfEntries order entries = .map members) : (Members.keys members).Nodup := by
  cases order with
  | insertion => exact Datum.map.inj built ▸ Members.unique_ofPairs entries
  | sorted => exact Datum.map.inj built ▸ (Members.sorted_sortedOfPairs entries).unique

theorem mem_mapOfEntries {order : KeyOrder} {entries members : List (String × Datum)}
    (unique : (Members.keys entries).Nodup) (built : mapOfEntries order entries = .map members) :
    ∀ entry ∈ entries, entry ∈ members := by
  intro entry known
  cases order with
  | insertion =>
    rw [← Datum.map.inj built, Members.ofPairs_of_unique unique]
    exact known
  | sorted =>
    rw [← Datum.map.inj built]
    apply Members.mem_of_find?
    rw [Members.find?_sortedOfPairs, Members.find?_reverse_of_unique unique]
    exact Members.find?_of_mem unique known

theorem eq_null_of_decode {json : Json} {value : Datum} (shaped : HasShape schema shape value)
    (decoded : json.decode schema shape = .ok value) (hidden : value.toJson = .null) :
    json = .null := by
  -- Besides options only the unit and a tree can be `null`, and neither is read from anything else.
  induction shaped with
  | unit =>
    cases json with
    | null => rfl
    | _ => contradiction
  | json =>
    cases (decode_tree json).symm.trans decoded
    exact hidden
  | absent =>
    rw [decode_option] at decoded
    split at decoded
    · next null => exact (isNull_iff json).mp null
    · obtain ⟨_, _, ⟨⟩⟩ := map_eq_ok_iff.mp decoded
  | present _ ih =>
    rw [decode_option] at decoded
    split at decoded
    · nomatch decoded
    · obtain ⟨_, held_ok, ⟨⟩⟩ := map_eq_ok_iff.mp decoded
      exact ih held_ok hidden
  | _ => contradiction

/-- The value belongs to the shape, and nothing of it is lost when it is written. -/
def Lasting (schema : Schema) (shape : Shape) (value : Datum) : Prop :=
  HasShape schema shape value ∧ value.Intact

def Yields (schema : Schema) (json : Json) (shape : Shape) : Prop :=
  ∀ value, json.decode schema shape = .ok value → Lasting schema shape value

theorem yields_double {json : Json} (plain : json.Plain) : Yields schema json .double := by
  intro value decoded
  cases json with
  | number number =>
    cases decoded
    cases plain.free with
    | number real => exact ⟨.double number, .double real⟩
  | _ => contradiction

theorem yields_single {json : Json} (plain : json.Plain) : Yields schema json .single := by
  intro value decoded
  cases json with
  | number number =>
    obtain ⟨single, read, rfl⟩ := toSingle_eq_ok_iff.mp decoded
    cases plain.free with
    | number real => exact ⟨.single single, .single (Single.ofDouble?_ne_nan real read)⟩
  | _ => contradiction

theorem yields_integer (type : IntegerType) (json : Json) :
    Yields schema json (.integer type) := by
  intro value decoded
  cases json with
  | number number =>
    obtain ⟨integer, read, rfl⟩ := toInteger_eq_ok_iff.mp decoded
    exact ⟨.integer (IntegerType.ofDouble?_eq_some_iff.mp read).2, .integer integer⟩
  | _ => contradiction

theorem yields_char (json : Json) : Yields schema json .char := by
  intro value decoded
  cases json with
  | string text =>
    have read : (string text).toChar = .ok value := decoded
    simp only [toChar] at read
    split at read
    · next c _ =>
      cases read
      exact ⟨.char c, .char c⟩
    · contradiction
  | _ => contradiction

theorem yields_option {json : Json} {inner : Shape} (inner_ok : Yields schema json inner) :
    Yields schema json (.option inner) := by
  intro value decoded
  rw [decode_option] at decoded
  split at decoded
  · cases decoded
    exact ⟨.absent inner, .absent⟩
  · next shown =>
    obtain ⟨held, held_ok, rfl⟩ := map_eq_ok_iff.mp decoded
    obtain ⟨shaped, intact⟩ := inner_ok held held_ok
    have visible : held.toJson ≠ .null := fun hidden =>
      shown ((isNull_iff json).mpr (eq_null_of_decode shaped held_ok hidden))
    exact ⟨.present shaped, .present intact visible⟩

theorem yields_list {items : List Json} {item : Shape}
    (items_ok : ∀ json ∈ items, Yields schema json item) :
    Yields schema (.array items) (.list item) := by
  intro value decoded
  obtain ⟨values, read, rfl⟩ := decode_list_eq_ok_iff.mp decoded
  have values_ok := forall_right read items_ok
  exact ⟨.list fun value known => (values_ok value known).1,
    .list fun value known => (values_ok value known).2⟩

theorem yields_map {members : List (String × Json)} {order : KeyOrder} {shape : Shape}
    (members_ok : ∀ member ∈ members, Yields schema member.2 shape) :
    Yields schema (.object members) (.map order shape) := by
  intro value decoded
  obtain ⟨entries, read, rfl⟩ := decode_map_eq_ok_iff.mp decoded
  have entries_ok := forall_right read fun member known entry entry_ok =>
    members_ok member known entry.2 entry_ok.2
  -- The map may list its entries in another order, but it holds no other ones.
  obtain ⟨kept, built⟩ := exists_mapOfEntries order entries
  have kept_ok (entry) (known : entry ∈ kept) :=
    entries_ok entry (mem_of_mapOfEntries built entry known)
  rw [built]
  exact ⟨.map (unique_mapOfEntries built) fun entry known => (kept_ok entry known).1,
    .map fun entry known => (kept_ok entry known).2⟩

theorem yields_record {members : List (String × Json)} {name : String}
    (members_ok : ∀ member ∈ members, ∀ field ∈ schema.fields name,
      Yields schema member.2 field.2) :
    Yields schema (.object members) (.record name) := by
  intro value decoded
  obtain ⟨fields, read, rfl⟩ := decode_record_eq_ok_iff.mp decoded
  have named := keys_of_related (fun _ _ field_ok => field_ok.1) read
  have fields_ok : ∀ pair ∈ fields.zip (schema.fields name),
      Lasting schema pair.2.2 pair.1.2 := by
    intro pair known
    obtain ⟨-, part, found, part_ok⟩ := (List.forall₂_iff_zip.mp read.flip).2 known
    exact members_ok _ (Members.mem_of_find? found) _ (List.of_mem_zip known).2 _ part_ok
  constructor
  · exact .record named fun pair known => (fields_ok pair known).1
  · apply Datum.Intact.record
    rw [← forall_mem_zip_left (length_of_named named)]
    exact fun pair known => (fields_ok pair known).2

theorem yields_of_parts (schema_ok : schema.IsEncodable) {json : Json} (plain : json.Plain)
    (items_ok : ∀ items, json = .array items → ∀ item ∈ items, ∀ shape, shape.isEncodable = true →
      Yields schema item shape)
    (members_ok : ∀ members, json = .object members → ∀ member ∈ members, ∀ shape,
      shape.isEncodable = true → Yields schema member.2 shape)
    {shape : Shape} (shape_ok : shape.isEncodable = true) : Yields schema json shape := by
  -- An option asks the same tree again; all other shapes go on to its parts.
  induction shape with
  | double => exact yields_double plain
  | single => exact yields_single plain
  | integer type => exact yields_integer type json
  | char => exact yields_char json
  | option inner ih => exact yields_option (ih shape_ok)
  | json =>
    intro value decoded
    cases (decode_tree json).symm.trans decoded
    exact ⟨.json plain.unique, .json plain.free⟩
  | unit =>
    intro value decoded
    cases json with
    | null =>
      cases decoded
      exact ⟨.unit, .unit⟩
    | _ => contradiction
  | bool =>
    intro value decoded
    cases json with
    | bool value =>
      cases decoded
      exact ⟨.bool value, .bool value⟩
    | _ => contradiction
  | text =>
    intro value decoded
    cases json with
    | string value =>
      cases decoded
      exact ⟨.text value, .text value⟩
    | _ => contradiction
  | list item =>
    cases json with
    | array items => exact yields_list fun json known => items_ok items rfl json known item shape_ok
    | _ => nofun
  | map order shape =>
    cases json with
    | object members =>
      exact yields_map fun member known => members_ok members rfl member known shape shape_ok
    | _ => nofun
  | record name =>
    cases json with
    | object members =>
      refine yields_record fun member known field listed => ?_
      exact members_ok members rfl member known field.2 (schema_ok.fields_encodable listed)
    | _ => nofun

theorem yields_of_plain (schema_ok : schema.IsEncodable) {json : Json} (plain : json.Plain)
    {shape : Shape} (shape_ok : shape.isEncodable = true) : Yields schema json shape := by
  induction json using inductionOn generalizing shape with
  | array items ih =>
    refine yields_of_parts schema_ok plain ?_ nofun shape_ok
    rintro _ ⟨⟩ item known shape shape_ok
    exact ih item known (plain.item item known) shape_ok
  | object members ih =>
    refine yields_of_parts schema_ok plain nofun ?_ shape_ok
    rintro _ ⟨⟩ member known shape shape_ok
    exact ih member known (plain.member member known) shape_ok
  | _ => exact yields_of_parts schema_ok plain nofun nofun shape_ok

end Json

end CombinatorJson
