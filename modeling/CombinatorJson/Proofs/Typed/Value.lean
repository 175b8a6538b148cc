import CombinatorJson.Proofs.SortedMembers
import CombinatorJson.Proofs.Tree
import CombinatorJson.Typed.Decode
import CombinatorJson.Typed.Encode

set_option autoImplicit false

namespace CombinatorJson

variable {schema : Schema} {shape : Shape} {datum : Datum}

namespace Schema

/-- The values of every field have a JSON form, and no record names a field twice. -/
structure IsEncodable (schema : Schema) : Prop where
  unique : ∀ record ∈ schema, (Members.keys record.2).Nodup
  encodable : ∀ record ∈ schema, ∀ field ∈ record.2, field.2.isEncodable = true

theorem fields_eq_nil_or_mem (schema : Schema) (name : String) :
    schema.fields name = [] ∨ (name, schema.fields name) ∈ schema := by
  rw [fields]
  cases found : Members.find? name schema with
  | none => exact .inl rfl
  | some fields => exact .inr (Members.mem_of_find? found)

theorem fields_nodup (unique : ∀ record ∈ schema, (Members.keys record.2).Nodup) (name : String) :
    (Members.keys (schema.fields name)).Nodup := by
  rcases schema.fields_eq_nil_or_mem name with none | known
  · rw [none]
    exact List.nodup_nil
  · exact unique _ known

theorem IsEncodable.fields_unique (schema_ok : schema.IsEncodable) (name : String) :
    (Members.keys (schema.fields name)).Nodup :=
  fields_nodup schema_ok.unique name

theorem IsEncodable.fields_encodable (schema_ok : schema.IsEncodable) {name : String}
    {field : String × Shape} (member : field ∈ schema.fields name) :
    field.2.isEncodable = true := by
  rcases schema.fields_eq_nil_or_mem name with none | known
  · rw [none] at member
    contradiction
  · exact schema_ok.encodable _ known field member

end Schema

/-- The entries of a map may come in any order, also where the map sorts them. The fields of a
record come in the order of the schema. -/
inductive HasShape (schema : Schema) : Shape → Datum → Prop where
  | unit : HasShape schema .unit .unit
  | bool (value : Bool) : HasShape schema .bool (.bool value)
  | double (value : Double) : HasShape schema .double (.double value)
  | single (value : Single) : HasShape schema .single (.single value)
  | integer {type : IntegerType} {value : Int} (contained : type.Contains value) :
      HasShape schema (.integer type) (.integer value)
  | text (value : String) : HasShape schema .text (.text value)
  | char (value : Char) : HasShape schema .char (.char value)
  | json {value : Json} (unique : value.UniqueKeys) : HasShape schema .json (.json value)
  | absent (inner : Shape) : HasShape schema (.option inner) .absent
  | present {inner : Shape} {value : Datum} (value_ok : HasShape schema inner value) :
      HasShape schema (.option inner) (.present value)
  | list {item : Shape} {items : List Datum} (items_ok : ∀ value ∈ items, HasShape schema item value) :
      HasShape schema (.list item) (.list items)
  | map {order : KeyOrder} {value : Shape} {entries : List (String × Datum)}
      (unique : (Members.keys entries).Nodup)
      (entries_ok : ∀ entry ∈ entries, HasShape schema value entry.2) :
      HasShape schema (.map order value) (.map entries)
  | record {name : String} {fields : List (String × Datum)}
      (named : Members.keys fields = Members.keys (schema.fields name))
      (fields_ok : ∀ pair ∈ fields.zip (schema.fields name), HasShape schema pair.2.2 pair.1.2) :
      HasShape schema (.record name) (.record fields)

namespace Datum

mutual

def settled (schema : Schema) : Shape → Datum → Datum
  | .option inner, present value => present (settled schema inner value)
  | .list item, list items => list (settledItems schema item items)
  | .map order value, map entries => Json.mapOfEntries order (settledEntries schema value entries)
  | .record name, record fields => record (settledFields schema (schema.fields name) fields)
  | _, datum => datum

def settledItems (schema : Schema) (item : Shape) : List Datum → List Datum
  | [] => []
  | value :: rest => settled schema item value :: settledItems schema item rest

def settledEntries (schema : Schema) (shape : Shape) :
    List (String × Datum) → List (String × Datum)
  | [] => []
  | (key, value) :: rest => (key, settled schema shape value) :: settledEntries schema shape rest

def settledFields (schema : Schema) :
    Members Shape → List (String × Datum) → List (String × Datum)
  | (_, shape) :: shapes, (key, value) :: rest =>
    (key, settled schema shape value) :: settledFields schema shapes rest
  | _, rest => rest

end

/-- Equality of values of a shape: a sorted map does not mind how its entries were listed. -/
def Same (schema : Schema) (shape : Shape) (left right : Datum) : Prop :=
  left.settled schema shape = right.settled schema shape

theorem settledItems_eq_map (item : Shape) (items : List Datum) :
    settledItems schema item items = items.map (settled schema item) :=
  eq_map_of_cons rfl (fun _ _ => rfl) items

theorem settledEntries_eq_map (shape : Shape) (entries : List (String × Datum)) :
    settledEntries schema shape entries =
      entries.map fun entry => (entry.1, entry.2.settled schema shape) :=
  eq_map_of_cons rfl (fun _ _ => rfl) entries

theorem settledFields_eq_map {shapes : Members Shape} {fields : List (String × Datum)}
    (long : fields.length ≤ shapes.length) :
    settledFields schema shapes fields =
      (fields.zip shapes).map fun pair => (pair.1.1, pair.1.2.settled schema pair.2.2) := by
  induction fields generalizing shapes with
  | nil => cases shapes <;> rfl
  | cons field rest ih =>
    cases shapes with
    | nil => contradiction
    | cons shape shapes =>
      rw [settledFields, ih (Nat.le_of_succ_le_succ long), List.zip_cons_cons, List.map_cons]

/-- No NaN occurs in the value, and no option that holds something looks empty in JSON. -/
inductive Intact : Datum → Prop where
  | unit : Intact .unit
  | bool (value : Bool) : Intact (.bool value)
  | double {value : Double} (real : value ≠ .nan) : Intact (.double value)
  | single {value : Single} (real : value ≠ .nan) : Intact (.single value)
  | integer (value : Int) : Intact (.integer value)
  | text (value : String) : Intact (.text value)
  | char (value : Char) : Intact (.char value)
  | json {value : Json} (free : value.NaNFree) : Intact (.json value)
  | absent : Intact .absent
  | present {value : Datum} (value_ok : Intact value) (shown : value.toJson ≠ .null) :
      Intact (.present value)
  | list {items : List Datum} (items_ok : ∀ item ∈ items, Intact item) : Intact (.list items)
  | map {entries : List (String × Datum)} (entries_ok : ∀ entry ∈ entries, Intact entry.2) :
      Intact (.map entries)
  | record {fields : List (String × Datum)} (fields_ok : ∀ field ∈ fields, Intact field.2) :
      Intact (.record fields)

end Datum

end CombinatorJson
