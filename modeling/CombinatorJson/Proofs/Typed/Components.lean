import CombinatorJson.Proofs.Typed.Parts
import Mathlib.Data.List.Forall2

set_option autoImplicit false

namespace CombinatorJson

section Traversal

variable {ε α β : Type} {f : α → Except ε β} {error : ε}
variable {input : α} {inputs : List α} {outputs : List β}

theorem mapM_eq_ok_iff :
    inputs.mapM f = .ok outputs ↔
      List.Forall₂ (fun input output => f input = .ok output) inputs outputs := by
  induction inputs generalizing outputs with
  | nil => simp [pure, Except.pure, eq_comm]
  | cons input rest ih =>
    simp only [List.mapM_cons, bind_eq_ok_iff, ih, List.forall₂_cons_left_iff, pure, Except.pure,
      Except.ok.injEq]
    constructor
    · rintro ⟨output, output_ok, others, others_ok, rfl⟩
      exact ⟨output, others, output_ok, others_ok, rfl⟩
    · rintro ⟨output, others, output_ok, others_ok, rfl⟩
      exact ⟨output, output_ok, others, others_ok, rfl⟩

def FirstError (f : α → Except ε β) (inputs : List α) (error : ε) : Prop :=
  ∃ before input after, inputs = before ++ input :: after ∧
    (∀ earlier ∈ before, ∃ output, f earlier = .ok output) ∧ f input = .error error

theorem firstError_cons_iff :
    FirstError f (input :: inputs) error ↔
      f input = .error error ∨ (∃ output, f input = .ok output) ∧ FirstError f inputs error := by
  constructor
  · rintro ⟨before, failing, after, split, before_ok, failed⟩
    cases before with
    | nil =>
      obtain ⟨rfl, rfl⟩ := List.cons.inj split
      exact .inl failed
    | cons first before =>
      obtain ⟨rfl, rfl⟩ := List.cons.inj split
      obtain ⟨first_ok, before_ok⟩ := List.forall_mem_cons.mp before_ok
      exact .inr ⟨first_ok, before, failing, after, rfl, before_ok, failed⟩
  · rintro (failed | ⟨first_ok, before, failing, after, rfl, before_ok, failed⟩)
    · exact ⟨[], input, inputs, rfl, by simp, failed⟩
    · exact ⟨input :: before, failing, after, rfl,
        List.forall_mem_cons.mpr ⟨first_ok, before_ok⟩, failed⟩

theorem mapM_eq_error_iff : inputs.mapM f = .error error ↔ FirstError f inputs error := by
  induction inputs with
  | nil => simp [FirstError, pure, Except.pure]
  | cons input rest ih =>
    simp only [firstError_cons_iff, List.mapM_cons, bind_eq_error_iff, ih, pure, Except.pure]
    simp

end Traversal

theorem map_map_eq {ε α β γ : Type} {result : Except ε α} {f : α → β} {g : β → γ} :
    (result.map f).map g = result.map fun value => g (f value) := by
  cases result <;> rfl

namespace ConversionError

def under : Step → ConversionError → ConversionError
  | .key key => .inField key
  | .index index => .inElement index

end ConversionError

/-- What a container asks of one place, or a field that is not there. -/
inductive Component where
  | part (step : Step) (shape : Shape) (json : Json)
  | missing (key : String)

namespace Component

def outcome (schema : Schema) : Component → Except ConversionError Datum
  | part step shape json => (json.decode schema shape).mapError (.under step)
  | missing key => .error (.missingField key)

def field (members : Members Json) (key : String) (shape : Shape) : Component :=
  match members.find? key with
  | some json => part (.key key) shape json
  | none => missing key

end Component

namespace Shape

/-- The kind of value that a shape asks for, if it matters. -/
def kind? : Shape → Option String
  | unit => some "null"
  | bool => some "bool"
  | double | single | integer _ => some "number"
  | text | char => some "string"
  | list _ => some "array"
  | map _ _ | record _ => some "object"
  | json | option _ => none

inductive Container : Shape → String → Prop where
  | list (item : Shape) : Container (.list item) "array"
  | map (order : KeyOrder) (value : Shape) : Container (.map order value) "object"
  | record (name : String) : Container (.record name) "object"

theorem Container.kind? {shape : Shape} {kind : String} (container : shape.Container kind) :
    shape.kind? = some kind := by
  cases container <;> rfl

end Shape

namespace Json

variable {schema : Schema} {json : Json}

def components (schema : Schema) : Shape → Json → List Component
  | .list item, .array items => items.zipIdx.map fun (json, index) => .part (.index index) item json
  | .map _ value, .object members => members.map fun (key, json) => .part (.key key) value json
  | .record name, .object members =>
    (schema.fields name).map fun (key, shape) => .field members key shape
  | _, _ => []

/-- The whole has the values of the components, and the keys that the tree or the schema gives. -/
inductive Assembles (schema : Schema) : Shape → Json → List Datum → Datum → Prop where
  | list {item : Shape} {items : List Json} (values : List Datum) :
      Assembles schema (.list item) (.array items) values (.list values)
  | inserted {value : Shape} {members : Members Json} (values : List Datum) :
      Assembles schema (.map .insertion value) (.object members) values
        (.map (members.keys.zip values))
  | sorted {value : Shape} {members : Members Json} (values : List Datum) :
      Assembles schema (.map .sorted value) (.object members) values
        (.map (Members.inKeyOrder (members.keys.zip values)))
  | record {name : String} {members : Members Json} (values : List Datum) :
      Assembles schema (.record name) (.object members) values
        (.record ((Members.keys (schema.fields name)).zip values))

theorem Assembles.unique {shape : Shape} {values : List Datum} {left right : Datum}
    (left_ok : Assembles schema shape json values left)
    (right_ok : Assembles schema shape json values right) : left = right := by
  cases left_ok <;> cases right_ok <;> rfl

theorem decodeItems_eq_mapM (item : Shape) (index : Nat) (items : List Json) :
    decodeItems item index (items.map (decoder schema)) =
      ((items.zipIdx index).map fun (json, index) =>
        Component.part (.index index) item json).mapM (Component.outcome schema) := by
  induction items generalizing index with
  | nil => rfl
  | cons json rest ih =>
    rw [List.map_cons, decodeItems, List.zipIdx_cons, List.map_cons, List.mapM_cons, ih]
    rfl

theorem zip_keys_of_bind {key : String} {keys : List String}
    {first : Except ConversionError Datum} {others : Except ConversionError (List Datum)} :
    (do
      let value ← first
      let values ← others.map (keys.zip ·)
      return (key, value) :: values) =
    Except.map ((key :: keys).zip ·) (do
      let value ← first
      let values ← others
      return value :: values) := by
  cases first <;> cases others <;> rfl

theorem decodeEntries_eq_mapM (value : Shape) (members : Members Json) :
    decodeEntries value (members.map fun (key, json) => (key, decoder schema json)) =
      ((members.map fun (key, json) => Component.part (.key key) value json).mapM
        (Component.outcome schema)).map (members.keys.zip ·) := by
  induction members with
  | nil => rfl
  | cons member rest ih =>
    rw [List.map_cons, decodeEntries, List.map_cons, List.mapM_cons, ih]
    exact zip_keys_of_bind

theorem decodeFields_eq_mapM (members : Members Json) (fields : Members Shape) :
    decodeFields (members.map fun (key, json) => (key, decoder schema json)) fields =
      ((fields.map fun (key, shape) => Component.field members key shape).mapM
        (Component.outcome schema)).map (fields.keys.zip ·) := by
  induction fields with
  | nil => rfl
  | cons field rest ih =>
    obtain ⟨key, shape⟩ := field
    rw [List.map_cons, List.mapM_cons, decodeFields, Members.find?_map, ih]
    simp only [Component.field]
    cases members.find? key with
    | none => rfl
    | some json => exact zip_keys_of_bind

theorem decode_of_other_kind {shape : Shape} {kind : String} {json : Json}
    (asked : shape.kind? = some kind) (other : json.typeName ≠ kind) :
    json.decode schema shape = .error (.typeMismatch kind json.typeName) := by
  cases shape <;> cases asked <;> cases json
  -- A value of the kind asked for is none of the cases; all others end in the same way.
  any_goals exact absurd rfl other
  all_goals rfl

theorem eq_array_of_typeName (tagged : json.typeName = "array") : ∃ items, json = .array items := by
  cases json with
  | array items => exact ⟨items, rfl⟩
  | _ => simp [typeName] at tagged

theorem eq_object_of_typeName (tagged : json.typeName = "object") :
    ∃ members, json = .object members := by
  cases json with
  | object members => exact ⟨members, rfl⟩
  | _ => simp [typeName] at tagged

theorem unique_zip {members : Members Json} {values : List Datum}
    (unique : members.keys.Nodup) (same : members.length = values.length) :
    (Members.keys (members.keys.zip values)).Nodup := by
  have sameKeys : Members.keys (members.keys.zip values) = members.keys :=
    List.map_fst_zip (by simp [Members.keys, same])
  rwa [sameKeys]

theorem assembles_mapOfEntries {order : KeyOrder} {shape : Shape} {members : Members Json}
    {values : List Datum} (unique : members.keys.Nodup) (same : members.length = values.length) :
    Assembles schema (.map order shape) (.object members) values
      (mapOfEntries order (members.keys.zip values)) := by
  have unique := unique_zip unique same
  cases order with
  | insertion =>
    rw [mapOfEntries, Members.ofPairs_of_unique unique]
    exact .inserted values
  | sorted =>
    rw [mapOfEntries, Members.sortedOfPairs_of_unique unique]
    exact .sorted values

theorem decode_eq_mapM {shape : Shape} {kind : String} (container : shape.Container kind)
    (tagged : json.typeName = kind) (unique : json.UniqueKeys) :
    ∃ assemble, json.decode schema shape =
        ((components schema shape json).mapM (Component.outcome schema)).map assemble ∧
      ∀ values, (components schema shape json).length = values.length →
        Assembles schema shape json values (assemble values) := by
  cases container with
  | list item =>
    obtain ⟨items, rfl⟩ := eq_array_of_typeName tagged
    refine ⟨.list, ?_, fun values _ => .list values⟩
    rw [decode_list, decodeItems_eq_mapM]
    rfl
  | map order shape =>
    obtain ⟨members, rfl⟩ := eq_object_of_typeName tagged
    refine ⟨fun values => mapOfEntries order ((Members.keys members).zip values), ?_,
      fun values same => ?_⟩
    · rw [decode_map, decodeEntries_eq_mapM, map_map_eq]
      rfl
    · -- Distinct keys are neither merged nor lost, whatever the order.
      have unique := (uniqueKeys_object_iff.mp unique).1
      exact assembles_mapOfEntries unique (by simpa [components] using same)
  | record name =>
    obtain ⟨members, rfl⟩ := eq_object_of_typeName tagged
    refine ⟨fun values => .record ((Members.keys (schema.fields name)).zip values), ?_,
      fun values _ => .record values⟩
    rw [decode_record, decodeFields_eq_mapM, map_map_eq]
    rfl

theorem decode_container {shape : Shape} {kind : String} (container : shape.Container kind)
    (unique : json.UniqueKeys) :
    (∀ value, json.decode schema shape = .ok value ↔
      json.typeName = kind ∧ ∃ values,
        List.Forall₂ (fun component value => component.outcome schema = .ok value)
          (components schema shape json) values ∧ Assembles schema shape json values value) ∧
    ∀ error, json.decode schema shape = .error error ↔
      json.typeName ≠ kind ∧ error = .typeMismatch kind json.typeName ∨
      json.typeName = kind ∧
        FirstError (Component.outcome schema) (components schema shape json) error := by
  by_cases tagged : json.typeName = kind
  · obtain ⟨assemble, decoded, assembles⟩ := decode_eq_mapM container tagged unique
    rw [decoded]
    refine ⟨fun value => ?_, fun error => ?_⟩
    · rw [map_eq_ok_iff]
      simp only [tagged, true_and, mapM_eq_ok_iff]
      refine exists_congr fun values => and_congr_right fun all => ?_
      have whole := assembles values all.length_eq
      exact ⟨fun same => same ▸ whole, whole.unique⟩
    · simp [map_eq_error_iff, mapM_eq_error_iff, tagged]
  · rw [decode_of_other_kind container.kind? tagged]
    simp [tagged, eq_comm]

theorem decode_option_iff {inner : Shape} :
    (∀ value, json.decode schema (.option inner) = .ok value ↔
      json = .null ∧ value = .absent ∨
      json ≠ .null ∧ ∃ held, json.decode schema inner = .ok held ∧ value = .present held) ∧
    ∀ error, json.decode schema (.option inner) = .error error ↔
      json ≠ .null ∧ json.decode schema inner = .error error := by
  rw [decode_option]
  rcases eq_or_ne json .null with rfl | other
  · simp [isNull, @eq_comm Datum _ .absent]
  · have kept : json.isNull = false := by simpa using mt (isNull_iff json).mp other
    simp [kept, other, map_eq_ok_iff, map_eq_error_iff, @eq_comm Datum _ (.present _)]

/-- A container is read exactly when it has the right kind and all its components are read, and then
it has their values. Otherwise its kind is to blame or else the first component that fails, as it
fails alone and one place further in. An option leaves all but null to what is in it. -/
theorem decode_components (unique : json.UniqueKeys) :
    (∀ shape kind, shape.Container kind →
      (∀ value, json.decode schema shape = .ok value ↔
        json.typeName = kind ∧ ∃ values,
          List.Forall₂ (fun component value => component.outcome schema = .ok value)
            (components schema shape json) values ∧ Assembles schema shape json values value) ∧
      ∀ error, json.decode schema shape = .error error ↔
        json.typeName ≠ kind ∧ error = .typeMismatch kind json.typeName ∨
        json.typeName = kind ∧
          FirstError (Component.outcome schema) (components schema shape json) error) ∧
    ∀ inner,
      (∀ value, json.decode schema (.option inner) = .ok value ↔
        json = .null ∧ value = .absent ∨
        json ≠ .null ∧ ∃ held, json.decode schema inner = .ok held ∧ value = .present held) ∧
      ∀ error, json.decode schema (.option inner) = .error error ↔
        json ≠ .null ∧ json.decode schema inner = .error error :=
  ⟨fun _ _ container => decode_container container unique, fun _ => decode_option_iff⟩

def labelledSchema : Schema :=
  [("labelled", [("id", .text), ("a", .list .double), ("b", .double)])]

def labelled : Json :=
  -- In the order of the tree `b` fails first, in the order of the schema `a`.
  .object [("b", .string "1"), ("a", .array [.number .nan, .bool true]), ("id", .string "é")]

theorem labelled_unique : labelled.UniqueKeys := by
  have items : (array [.number .nan, .bool true]).UniqueKeys :=
    .array (by simpa using ⟨.number _, .bool _⟩)
  exact .object (by decide) (by simpa using ⟨.string _, items, .string _⟩)

theorem decode_components_labelled :
    labelled.UniqueKeys ∧ Shape.Container (.record "labelled") "object" ∧
      FirstError (Component.outcome labelledSchema)
        (components labelledSchema (.record "labelled") labelled)
        (.inField "a" (.inElement 1 (.typeMismatch "number" "bool"))) ∧
      labelled.decode labelledSchema (.record "labelled") =
        .error (.inField "a" (.inElement 1 (.typeMismatch "number" "bool"))) := by
  have container := Shape.Container.record "labelled"
  have first : FirstError (Component.outcome labelledSchema)
      (components labelledSchema (.record "labelled") labelled)
      (.inField "a" (.inElement 1 (.typeMismatch "number" "bool"))) :=
    ⟨[.part (.key "id") .text (.string "é")], _, _, rfl, by simpa using ⟨_, rfl⟩, rfl⟩
  refine ⟨labelled_unique, container, first, ?_⟩
  obtain ⟨containers, -⟩ := decode_components labelled_unique
  exact ((containers _ _ container).2 _).mpr (.inr ⟨rfl, first⟩)

end Json

end CombinatorJson
