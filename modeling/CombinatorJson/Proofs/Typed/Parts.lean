import CombinatorJson.Proofs.Typed.Value

set_option autoImplicit false

namespace CombinatorJson

theorem bind_eq_ok_iff {ε α β : Type} {result : Except ε α} {next : α → Except ε β} {output : β} :
    (result >>= next) = .ok output ↔ ∃ value, result = .ok value ∧ next value = .ok output := by
  cases result <;> simp [bind, Except.bind]

theorem map_eq_ok_iff {ε α β : Type} {result : Except ε α} {f : α → β} {output : β} :
    result.map f = .ok output ↔ ∃ value, result = .ok value ∧ f value = output := by
  cases result <;> simp [Except.map]

theorem map_eq_ok_iff_of_inj {ε α β : Type} {result : Except ε α} {f : α → β} {output : α}
    (inj : ∀ value, f value = f output → value = output) :
    result.map f = .ok (f output) ↔ result = .ok output := by
  rw [map_eq_ok_iff]
  constructor
  · rintro ⟨value, value_ok, same⟩
    rw [value_ok, inj value same]
  · exact fun output_ok => ⟨output, output_ok, rfl⟩

theorem mapError_eq_ok_iff {ε ε' α : Type} {result : Except ε α} {f : ε → ε'} {output : α} :
    result.mapError f = .ok output ↔ result = .ok output := by
  constructor
  · intro same
    cases result with
    | error => nomatch same
    | ok value =>
      cases same
      rfl
  · intro same
    rw [same]
    rfl

theorem bind_eq_error_iff {ε α β : Type} {result : Except ε α} {next : α → Except ε β} {error : ε} :
    (result >>= next) = .error error ↔
      result = .error error ∨ ∃ value, result = .ok value ∧ next value = .error error := by
  cases result <;> simp [bind, Except.bind]

theorem map_eq_error_iff {ε α β : Type} {result : Except ε α} {f : α → β} {error : ε} :
    result.map f = .error error ↔ result = .error error := by
  cases result <;> simp [Except.map]

theorem mapError_eq_error_iff {ε ε' α : Type} {result : Except ε α} {f : ε → ε'} {error : ε'} :
    result.mapError f = .error error ↔ ∃ inner, result = .error inner ∧ f inner = error := by
  cases result with
  | ok value =>
    change Except.ok value = .error error ↔ _
    simp
  | error inner =>
    change Except.error (f inner) = .error error ↔ _
    simp

namespace Json

variable {schema : Schema}

theorem decode_tree (json : Json) : json.decode schema .json = .ok (.json json) := by
  cases json <;> rfl

theorem isNull_iff (json : Json) : json.isNull = true ↔ json = .null := by
  cases json <;> simp [isNull]

theorem toSingle_number (value : Double) :
    (number value).toSingle =
      match Single.ofDouble? value with
      | some single => .ok (.single single)
      | none => .error (.numberOutOfRange "f32" value) := by
  rfl

theorem toInteger_number (type : IntegerType) (value : Double) :
    (number value).toInteger type =
      match type.ofDouble? value with
      | some integer => .ok (.integer integer)
      | none => .error (.numberOutOfRange type.name value) := by
  rfl

theorem toSingle_eq_ok_iff {value : Double} {datum : Datum} :
    (number value).toSingle = .ok datum ↔
      ∃ single, Single.ofDouble? value = some single ∧ datum = .single single := by
  rw [toSingle_number]
  cases Single.ofDouble? value <;> simp [eq_comm]

theorem toInteger_eq_ok_iff {type : IntegerType} {value : Double} {datum : Datum} :
    (number value).toInteger type = .ok datum ↔
      ∃ integer, type.ofDouble? value = some integer ∧ datum = .integer integer := by
  rw [toInteger_number]
  cases type.ofDouble? value <;> simp [eq_comm]

theorem decode_list (schema : Schema) (item : Shape) (items : List Json) :
    (array items).decode schema (.list item) =
      (decodeItems item 0 (items.map (decoder schema))).map .list := by
  rw [← itemDecoders_eq_map]
  rfl

theorem decode_map (schema : Schema) (order : KeyOrder) (value : Shape)
    (members : List (String × Json)) :
    (object members).decode schema (.map order value) =
      (decodeEntries value (members.map fun (key, json) => (key, decoder schema json))).map
        (mapOfEntries order) := by
  rw [← memberDecoders_eq_map]
  rfl

theorem decode_record (schema : Schema) (name : String) (members : List (String × Json)) :
    (object members).decode schema (.record name) =
      (decodeFields (members.map fun (key, json) => (key, decoder schema json))
        (schema.fields name)).map .record := by
  rw [← memberDecoders_eq_map]
  rfl

theorem decodeItems_cons_eq_ok_iff {item : Shape} {index : Nat} {decoder : Decoder}
    {rest : List Decoder} {values : List Datum} :
    decodeItems item index (decoder :: rest) = .ok values ↔
      ∃ value others, decoder item = .ok value ∧ decodeItems item (index + 1) rest = .ok others ∧
        value :: others = values := by
  simp only [decodeItems, bind_eq_ok_iff, mapError_eq_ok_iff]
  simp [pure, Except.pure]

theorem decodeEntries_cons_eq_ok_iff {shape : Shape} {key : String} {decoder : Decoder}
    {rest : List (String × Decoder)} {entries : List (String × Datum)} :
    decodeEntries shape ((key, decoder) :: rest) = .ok entries ↔
      ∃ value others, decoder shape = .ok value ∧ decodeEntries shape rest = .ok others ∧
        (key, value) :: others = entries := by
  simp only [decodeEntries, bind_eq_ok_iff, mapError_eq_ok_iff]
  simp [pure, Except.pure]

theorem decodeFields_cons_eq_ok_iff {members : Members Decoder} {key : String} {shape : Shape}
    {rest : List (String × Shape)} {fields : List (String × Datum)} :
    decodeFields members ((key, shape) :: rest) = .ok fields ↔
      ∃ decoder value others, members.find? key = some decoder ∧ decoder shape = .ok value ∧
        decodeFields members rest = .ok others ∧ (key, value) :: others = fields := by
  rw [decodeFields]
  cases members.find? key with
  | none => simp [bind, Except.bind]
  | some decoder =>
    simp only [bind_eq_ok_iff, mapError_eq_ok_iff]
    simp [pure, Except.pure]

theorem keys_of_decodeEntries {shape : Shape} {pairs : List (String × Decoder)}
    {entries : List (String × Datum)} (decoded : decodeEntries shape pairs = .ok entries) :
    Members.keys entries = Members.keys pairs := by
  induction pairs generalizing entries with
  | nil =>
    cases decoded
    rfl
  | cons pair rest ih =>
    obtain ⟨value, others, _, rest_ok, rfl⟩ := decodeEntries_cons_eq_ok_iff.mp decoded
    rw [Members.keys_cons, Members.keys_cons, ih rest_ok]

variable {α : Type} {key : α → String} {decoder : α → Decoder} {value : α → Datum} {parts : List α}

theorem decodeItems_map_eq_ok_iff {item : Shape} (index : Nat) :
    decodeItems item index (parts.map decoder) = .ok (parts.map value) ↔
      ∀ part ∈ parts, decoder part item = .ok (value part) := by
  induction parts generalizing index with
  | nil => simp [decodeItems]
  | cons part rest ih =>
    rw [List.forall_mem_cons, ← ih (index + 1), List.map_cons, decodeItems_cons_eq_ok_iff]
    simp

theorem decodeEntries_map_eq_ok_iff {shape : Shape} :
    decodeEntries shape (parts.map fun part => (key part, decoder part)) =
        .ok (parts.map fun part => (key part, value part)) ↔
      ∀ part ∈ parts, decoder part shape = .ok (value part) := by
  induction parts with
  | nil => simp [decodeEntries]
  | cons part rest ih =>
    rw [List.forall_mem_cons, ← ih, List.map_cons, decodeEntries_cons_eq_ok_iff]
    simp

theorem decodeFields_zip_eq_ok_iff {β : Type} (decoder : β → Decoder) (value : β → Shape → Datum)
    {members : Members Decoder} {fields : Members β} {shapes : Members Shape}
    (named : Members.keys fields = Members.keys shapes)
    (found : ∀ field ∈ fields, members.find? field.1 = some (decoder field.2)) :
    decodeFields members shapes =
        .ok ((fields.zip shapes).map fun pair => (pair.1.1, value pair.1.2 pair.2.2)) ↔
      ∀ pair ∈ fields.zip shapes,
        decoder pair.1.2 pair.2.2 = .ok (value pair.1.2 pair.2.2) := by
  induction fields generalizing shapes with
  | nil =>
    cases shapes with
    | nil => simp [decodeFields]
    | cons => contradiction
  | cons field rest ih =>
    cases shapes with
    | nil => contradiction
    | cons shape shapes =>
      obtain ⟨here, later⟩ := List.forall_mem_cons.mp found
      obtain ⟨sameKey, sameKeys⟩ := List.cons.inj named
      rw [List.zip_cons_cons, List.forall_mem_cons, ← ih sameKeys later, List.map_cons,
        decodeFields_cons_eq_ok_iff, ← sameKey]
      simp [here]

theorem mapOfEntries_inj {order : KeyOrder} {left right : List (String × Datum)}
    (unique : (Members.keys left).Nodup) (sameKeys : Members.keys left = Members.keys right) :
    mapOfEntries order left = mapOfEntries order right ↔ left = right := by
  constructor
  · intro same
    cases order with
    | insertion =>
      have unique' : (Members.keys right).Nodup := by rwa [← sameKeys]
      rw [mapOfEntries, mapOfEntries, Members.ofPairs_of_unique unique,
        Members.ofPairs_of_unique unique'] at same
      exact Datum.map.inj same
    | sorted => exact Members.eq_of_sortedOfPairs unique sameKeys (Datum.map.inj same)
  · exact congrArg _

theorem mapOfEntries_eq_ok_iff {order : KeyOrder} {shape : Shape}
    {pairs : List (String × Decoder)} {entries : List (String × Datum)}
    (unique : (Members.keys pairs).Nodup) (sameKeys : Members.keys entries = Members.keys pairs) :
    (decodeEntries shape pairs).map (mapOfEntries order) = .ok (mapOfEntries order entries) ↔
      decodeEntries shape pairs = .ok entries := by
  rw [map_eq_ok_iff]
  constructor
  · rintro ⟨decoded, decoded_ok, same⟩
    have decodedKeys := keys_of_decodeEntries decoded_ok
    have decodedUnique : (Members.keys decoded).Nodup := by rwa [decodedKeys]
    rw [decoded_ok, (mapOfEntries_inj decodedUnique (decodedKeys.trans sameKeys.symm)).mp same]
  · exact fun entries_ok => ⟨entries, entries_ok, rfl⟩

end Json

end CombinatorJson
