import CombinatorJson.Proofs.Grammar.Written
import CombinatorJson.Proofs.Numeric.Exact
import CombinatorJson.Proofs.Typed.Settled
import CombinatorJson.Typed.Reading

set_option autoImplicit false

namespace CombinatorJson

variable {schema : Schema} {shape : Shape} {datum : Datum}

namespace Datum

theorem itemsToJson_eq_map (items : List Datum) : itemsToJson items = items.map toJson :=
  eq_map_of_cons rfl (fun _ _ => rfl) items

theorem membersToJson_eq_map (members : List (String × Datum)) :
    membersToJson members = members.map fun member => (member.1, member.2.toJson) :=
  eq_map_of_cons rfl (fun _ _ => rfl) members

theorem ofPairs_membersToJson {members : List (String × Datum)}
    (unique : (Members.keys members).Nodup) : Json.ofPairs (membersToJson members) =
      .object (members.map fun member => (member.1, member.2.toJson)) := by
  have unique' := Members.unique_map_values toJson unique
  rw [Json.ofPairs, membersToJson_eq_map, Members.ofPairs_of_unique unique']

end Datum

theorem forall_mem_zip_left {α β : Type} {xs : List α} {ys : List β} {p : α → Prop}
    (sameLength : xs.length = ys.length) : (∀ pair ∈ xs.zip ys, p pair.1) ↔ ∀ x ∈ xs, p x := by
  conv => rhs; rw [← List.map_fst_zip (Nat.le_of_eq sameLength)]
  exact List.forall_mem_map.symm

theorem length_of_named {name : String} {fields : List (String × Datum)}
    (named : Members.keys fields = Members.keys (schema.fields name)) :
    fields.length = (schema.fields name).length := by
  simpa [Members.keys] using congrArg List.length named

theorem HasShape.uniqueKeys (schema_ok : schema.IsEncodable) (shaped : HasShape schema shape datum) :
    datum.toJson.UniqueKeys := by
  induction shaped with
  | unit => exact .null
  | bool value => exact .bool value
  | double value => exact .number value
  | single value => exact .number _
  | integer _ => exact .number _
  | text value => exact .string value
  | char value => exact .string _
  | json unique => exact unique
  | absent => exact .null
  | present _ ih => exact ih
  | list _ ih =>
    rw [Datum.toJson, Datum.itemsToJson_eq_map]
    exact .array (List.forall_mem_map.mpr ih)
  | map unique _ ih =>
    rw [Datum.toJson, Datum.ofPairs_membersToJson unique]
    exact .object (Members.unique_map_values Datum.toJson unique) (List.forall_mem_map.mpr ih)
  | @record name fields named _ ih =>
    have unique : (Members.keys fields).Nodup := named ▸ schema_ok.fields_unique name
    rw [Datum.toJson, Datum.ofPairs_membersToJson unique]
    refine .object (Members.unique_map_values Datum.toJson unique) ?_
    exact List.forall_mem_map.mpr ((forall_mem_zip_left (length_of_named named)).mp ih)

theorem convert_ne_nan {value : Single} (real : value ≠ .nan) : (value.convert : Double) ≠ .nan := by
  intro missing
  have back := Binary.convert_convert Single.widens value
  rw [missing] at back
  exact real back.symm

theorem decode_double (value : Double) :
    (Json.number value).withoutNaN.decode schema .double = .ok (.double value) ↔ value ≠ .nan := by
  by_cases missing : value = .nan
  · subst missing
    constructor
    · intro decoded
      contradiction
    · intro real
      contradiction
  · rw [Json.withoutNaN, if_neg missing]
    exact ⟨fun _ => missing, fun _ => rfl⟩

theorem decode_single (value : Single) :
    (Json.number value.convert).withoutNaN.decode schema .single = .ok (.single value) ↔
      value ≠ .nan := by
  by_cases missing : value = .nan
  · subst missing
    constructor
    · intro decoded
      contradiction
    · intro real
      contradiction
  · rw [Json.withoutNaN, if_neg (convert_ne_nan missing)]
    have back := Single.ofDouble?_convert value
    exact ⟨fun _ => missing, fun _ => Json.toSingle_eq_ok_iff.mpr ⟨value, back, rfl⟩⟩

theorem decode_integer {type : IntegerType} {value : Int} (exact : type.isExact = true)
    (contained : type.Contains value) :
    (Json.number (.ofInt value)).withoutNaN.decode schema (.integer type) = .ok (.integer value) := by
  have real : (.ofInt value : Double) ≠ .nan := nofun
  rw [Json.withoutNaN, if_neg real]
  exact Json.toInteger_eq_ok_iff.mpr ⟨value, IntegerType.ofDouble?_ofInt exact contained, rfl⟩

theorem decode_char (value : Char) :
    (Json.string value.toString).withoutNaN.decode schema .char = .ok (.char value) := by
  have single : value.toString.toList = [value] := String.toList_singleton value
  have unchanged : (Json.string value.toString).withoutNaN = .string value.toString := rfl
  rw [unchanged]
  show (Json.string value.toString).toChar = .ok (.char value)
  rw [Json.toChar, single]

theorem decode_json (value : Json) :
    value.withoutNaN.decode schema .json = .ok (.json value) ↔ (Datum.json value).Intact := by
  rw [Json.decode_tree, Except.ok.injEq, Datum.json.injEq, Json.withoutNaN_eq_self_iff]
  constructor
  · exact .json
  · intro intact
    cases intact with
    | json free => exact free

theorem isNull_withoutNaN (json : Json) :
    json.withoutNaN.isNull = true ↔ json = .null ∨ json = .number .nan := by
  cases json with
  | null => simp [Json.withoutNaN, Json.isNull]
  | number value => by_cases missing : value = .nan <;> simp [Json.withoutNaN, Json.isNull, missing]
  | _ => simp [Json.withoutNaN, Json.isNull]

theorem Datum.Intact.toJson_ne_nan (intact : datum.Intact) : datum.toJson ≠ .number .nan := by
  induction intact with
  | double real => exact fun same => real (Json.number.inj same)
  | single real => exact fun same => convert_ne_nan real (Json.number.inj same)
  | integer => exact fun same => nomatch Json.number.inj same
  | json free =>
    rintro rfl
    obtain _ | _ | real := free
    exact real rfl
  | present _ _ ih => exact ih
  | _ => exact nofun

theorem decode_present {inner : Shape} {value settled : Datum}
    (value_ok : value.toJson.withoutNaN.decode schema inner = .ok settled ↔ value.Intact) :
    value.toJson.withoutNaN.decode schema (.option inner) = .ok (.present settled) ↔
      (Datum.present value).Intact := by
  rw [Json.decode_option]
  constructor
  · intro decoded
    split at decoded
    · nomatch decoded
    · next shown =>
      obtain ⟨held, held_ok, same⟩ := map_eq_ok_iff.mp decoded
      cases same
      refine .present (value_ok.mp held_ok) fun hidden => shown ?_
      exact (isNull_withoutNaN value.toJson).mpr (.inl hidden)
  · intro intact
    cases intact with
    | present intact shown =>
      -- Only NaN becomes `null` on the way, and an intact value holds none.
      have visible : ¬ value.toJson.withoutNaN.isNull = true := by
        rw [isNull_withoutNaN]
        exact not_or.mpr ⟨shown, intact.toJson_ne_nan⟩
      rw [if_neg visible, value_ok.mpr intact]
      rfl

theorem intact_list_iff {items : List Datum} :
    (Datum.list items).Intact ↔ ∀ item ∈ items, item.Intact := by
  constructor
  · intro intact
    cases intact with
    | list items_ok => exact items_ok
  · exact .list

theorem intact_map_iff {entries : List (String × Datum)} :
    (Datum.map entries).Intact ↔ ∀ entry ∈ entries, entry.2.Intact := by
  constructor
  · intro intact
    cases intact with
    | map entries_ok => exact entries_ok
  · exact .map

theorem intact_record_iff {fields : List (String × Datum)} :
    (Datum.record fields).Intact ↔ ∀ field ∈ fields, field.2.Intact := by
  constructor
  · intro intact
    cases intact with
    | record fields_ok => exact fields_ok
  · exact .record

theorem decode_items {item : Shape} {items : List Datum}
    (items_ok : ∀ value ∈ items, value.toJson.withoutNaN.decode schema item =
      .ok (value.settled schema item) ↔ value.Intact) :
    (Datum.list items).toJson.withoutNaN.decode schema (.list item) =
      .ok ((Datum.list items).settled schema (.list item)) ↔ (Datum.list items).Intact := by
  rw [Datum.toJson, Datum.itemsToJson_eq_map, Json.withoutNaN, Json.itemsWithoutNaN_eq_map,
    Json.decode_list, List.map_map, List.map_map, Datum.settled, Datum.settledItems_eq_map,
    map_eq_ok_iff_of_inj fun _ => Datum.list.inj, Json.decodeItems_map_eq_ok_iff, intact_list_iff]
  exact forall₂_congr items_ok

theorem decode_entries {order : KeyOrder} {shape : Shape} {entries : List (String × Datum)}
    (unique : (Members.keys entries).Nodup)
    (entries_ok : ∀ entry ∈ entries, entry.2.toJson.withoutNaN.decode schema shape =
      .ok (entry.2.settled schema shape) ↔ entry.2.Intact) :
    (Datum.map entries).toJson.withoutNaN.decode schema (.map order shape) =
      .ok ((Datum.map entries).settled schema (.map order shape)) ↔ (Datum.map entries).Intact := by
  rw [Datum.toJson, Datum.ofPairs_membersToJson unique, Json.withoutNaN,
    Json.membersWithoutNaN_eq_map, List.map_map, Json.decode_map, List.map_map, Datum.settled,
    Datum.settledEntries_eq_map, Json.mapOfEntries_eq_ok_iff, intact_map_iff]
  · exact Json.decodeEntries_map_eq_ok_iff.trans (forall₂_congr entries_ok)
  · simpa [Members.keys, Function.comp_def] using unique
  · simp [Members.keys, Function.comp_def]

theorem decode_fields {name : String} {fields : List (String × Datum)}
    (unique : (Members.keys fields).Nodup)
    (named : Members.keys fields = Members.keys (schema.fields name))
    (fields_ok : ∀ pair ∈ fields.zip (schema.fields name),
      pair.1.2.toJson.withoutNaN.decode schema pair.2.2 =
        .ok (pair.1.2.settled schema pair.2.2) ↔ pair.1.2.Intact) :
    (Datum.record fields).toJson.withoutNaN.decode schema (.record name) =
      .ok ((Datum.record fields).settled schema (.record name)) ↔ (Datum.record fields).Intact := by
  have sameLength := length_of_named named
  rw [Datum.toJson, Datum.ofPairs_membersToJson unique, Json.withoutNaN,
    Json.membersWithoutNaN_eq_map, List.map_map, Json.decode_record, List.map_map, Datum.settled,
    Datum.settledFields_eq_map (Nat.le_of_eq sameLength),
    map_eq_ok_iff_of_inj fun _ => Datum.record.inj,
    Json.decodeFields_zip_eq_ok_iff (fun value => Json.decoder schema value.toJson.withoutNaN)
      (fun value shape => value.settled schema shape) named,
    intact_record_iff, ← forall_mem_zip_left sameLength]
  · exact forall₂_congr fields_ok
  · intro field known
    exact Members.find?_map_of_mem (fun value => Json.decoder schema value.toJson.withoutNaN) unique
      known

theorem decode_toJson (schema_ok : schema.IsEncodable) (shape_ok : shape.isEncodable = true)
    (shaped : HasShape schema shape datum) :
    datum.toJson.withoutNaN.decode schema shape = .ok (datum.settled schema shape) ↔
      datum.Intact := by
  -- One case for each shape; the parts of a container are read back exactly when each one is.
  induction shaped with
  | unit => exact ⟨fun _ => .unit, fun _ => rfl⟩
  | bool value => exact ⟨fun _ => .bool value, fun _ => rfl⟩
  | double value =>
    refine (decode_double value).trans ⟨.double, fun intact => ?_⟩
    cases intact with
    | double real => exact real
  | single value =>
    refine (decode_single value).trans ⟨.single, fun intact => ?_⟩
    cases intact with
    | single real => exact real
  | @integer type value contained =>
    exact ⟨fun _ => .integer value, fun _ => decode_integer shape_ok contained⟩
  | text value => exact ⟨fun _ => .text value, fun _ => rfl⟩
  | char value => exact ⟨fun _ => .char value, fun _ => decode_char value⟩
  | @json value unique => exact decode_json value
  | absent inner => exact ⟨fun _ => .absent, fun _ => rfl⟩
  | present _ ih => exact decode_present (ih shape_ok)
  | list _ ih => exact decode_items fun value known => ih value known shape_ok
  | map unique _ ih => exact decode_entries unique fun entry known => ih entry known shape_ok
  | @record name fields named _ ih =>
    have unique : (Members.keys fields).Nodup := named ▸ schema_ok.fields_unique name
    refine decode_fields unique named fun pair known => ih pair known ?_
    exact schema_ok.fields_encodable (List.of_mem_zip known).2

theorem parse_encode (unique : datum.toJson.UniqueKeys) :
    Json.parse (encode datum) = .ok datum.toJson.withoutNaN := by
  have spaced := Grammar.spaced_flatten datum.toJson.tokens
  rw [Json.flatten_tokens] at spaced
  apply Json.parse_of_documentText
  rw [encode, Json.text, String.toList_ofList]
  exact Grammar.documentText_of_spaced unique spaced

theorem decode_encode_eq (unique : datum.toJson.UniqueKeys) :
    decode schema shape (encode datum) =
      (datum.toJson.withoutNaN.decode schema shape).mapError .unfit := by
  rw [decode, parse_encode unique]
  rfl

theorem decode_encode_settled (schema_ok : schema.IsEncodable) (shape_ok : shape.isEncodable = true)
    (shaped : HasShape schema shape datum) :
    decode schema shape (encode datum) = .ok (datum.settled schema shape) ↔ datum.Intact := by
  rw [decode_encode_eq (shaped.uniqueKeys schema_ok), mapError_eq_ok_iff]
  exact decode_toJson schema_ok shape_ok shaped

theorem settled_of_read {result : Datum} (unique : datum.toJson.UniqueKeys)
    (read : decode schema shape (encode datum) = .ok result) : result.settled schema shape = result := by
  rw [decode_encode_eq unique, mapError_eq_ok_iff] at read
  exact Json.settled_of_decode _ shape result read

/-- A value is read back from its text as the same value, exactly when it holds no NaN and no
option that holds something but looks empty in JSON. -/
theorem decode_encode (schema_ok : schema.IsEncodable) (shape_ok : shape.isEncodable = true)
    (shaped : HasShape schema shape datum) :
    (∃ result, decode schema shape (encode datum) = .ok result ∧
      Datum.Same schema shape result datum) ↔ datum.Intact := by
  have unique := shaped.uniqueKeys schema_ok
  rw [← decode_encode_settled schema_ok shape_ok shaped]
  constructor
  · rintro ⟨result, read, same⟩
    rw [read, ← same, settled_of_read unique read]
  · intro read
    exact ⟨_, read, settled_of_read unique read⟩

def linkSchema : Schema :=
  [("Link", [("id", .integer ⟨false, .w8⟩), ("next", .option (.record "Link"))])]

def link (id : Int) (next : Datum) : Datum :=
  .record [("id", .integer id), ("next", next)]

theorem hasShape_link {id : Int} {next : Datum} (contained : IntegerType.Contains ⟨false, .w8⟩ id)
    (next_ok : HasShape linkSchema (.option (.record "Link")) next) :
    HasShape linkSchema (.record "Link") (link id next) := by
  apply HasShape.record rfl
  have id_ok : HasShape linkSchema (.integer ⟨false, .w8⟩) (.integer id) := .integer contained
  simpa [linkSchema, Schema.fields, Members.find?] using ⟨id_ok, next_ok⟩

theorem intact_link {id : Int} {next : Datum} (next_ok : next.Intact) : (link id next).Intact :=
  .record (by simpa using ⟨.integer id, next_ok⟩)

theorem decode_encode_link :
    ∃ result, decode linkSchema (.record "Link") (encode (link 7 (.present (link 255 .absent)))) =
        .ok result ∧
      Datum.Same linkSchema (.record "Link") result (link 7 (.present (link 255 .absent))) := by
  have schema_ok : linkSchema.IsEncodable := ⟨by decide, by decide⟩
  have last_ok := hasShape_link (by decide : IntegerType.Contains ⟨false, .w8⟩ 255) (.absent _)
  have chain_ok := hasShape_link (by decide : IntegerType.Contains ⟨false, .w8⟩ 7) (.present last_ok)
  have intact : (link 7 (.present (link 255 .absent))).Intact :=
    intact_link (.present (intact_link .absent) nofun)
  exact (decode_encode schema_ok rfl chain_ok).mpr intact

end CombinatorJson
