import CombinatorJson.Proofs.Typed.Components

set_option autoImplicit false

namespace CombinatorJson

namespace ConversionError

def steps : ConversionError → List Step
  | inField key inner => .key key :: inner.steps
  | inElement index inner => .index index :: inner.steps
  | _ => []

@[simp] theorem steps_under (step : Step) (error : ConversionError) :
    (under step error).steps = step :: error.steps := by
  cases step <;> rfl

@[simp] theorem root_under (step : Step) (error : ConversionError) :
    (under step error).root = error.root := by
  cases step <;> rfl

end ConversionError

namespace Shape

/-- What a shape asks of the value some steps further in. An option asks the same place again. -/
inductive Asks (schema : Schema) : Shape → List Step → Shape → Prop where
  | here (shape : Shape) : Asks schema shape [] shape
  | option {inner component : Shape} {steps : List Step} (asks : Asks schema inner steps component) :
      Asks schema (.option inner) steps component
  | item {item component : Shape} {steps : List Step} {index : Nat}
      (asks : Asks schema item steps component) :
      Asks schema (.list item) (.index index :: steps) component
  | entry {order : KeyOrder} {value component : Shape} {steps : List Step} {key : String}
      (asks : Asks schema value steps component) :
      Asks schema (.map order value) (.key key :: steps) component
  | field {name key : String} {shape component : Shape} {steps : List Step}
      (known : (key, shape) ∈ schema.fields name) (asks : Asks schema shape steps component) :
      Asks schema (.record name) (.key key :: steps) component

end Shape

/-- What can be wrong with a value itself, its parts apart. -/
inductive Fault (schema : Schema) : Shape → Json → ConversionError → Prop where
  | kind {shape : Shape} {json : Json} {kind : String} (asked : shape.kind? = some kind)
      (other : json.typeName ≠ kind) : Fault schema shape json (.typeMismatch kind json.typeName)
  | single {value : Double} (beyond : Single.ofDouble? value = none) :
      Fault schema .single (.number value) (.numberOutOfRange "f32" value)
  | integer {type : IntegerType} {value : Double} (beyond : type.ofDouble? value = none) :
      Fault schema (.integer type) (.number value) (.numberOutOfRange type.name value)
  | char {value message : String} (several : value.toList.length ≠ 1) :
      Fault schema .char (.string value) (.custom message)
  | missing {name key : String} {members : Members Json}
      (asked : key ∈ Members.keys (schema.fields name))
      (absent : Members.find? key members = none) :
      Fault schema (.record name) (.object members) (.missingField key)

namespace Json

variable {schema : Schema}

theorem foldl_step_none (path : List Step) :
    path.foldl (fun place step => place.bind (step? step)) none = none := by
  induction path with
  | nil => rfl
  | cons step rest ih => exact ih

theorem find?_cons (step : Step) (rest : List Step) (json : Json) :
    json.find? (step :: rest) = (json.step? step).bind (find? rest) := by
  rw [find?, List.foldl_cons, Option.bind_some]
  cases json.step? step with
  | none => exact foldl_step_none rest
  | some part => rfl

theorem step?_of_component {shape inner : Shape} {json part : Json} {step : Step}
    (unique : json.UniqueKeys) (known : .part step inner part ∈ components schema shape json) :
    json.step? step = some part ∧ ∀ {steps component}, inner.Asks schema steps component →
      shape.Asks schema (step :: steps) component := by
  unfold components at known
  split at known
  · next item items =>
    obtain ⟨⟨json, index⟩, indexed, same⟩ := List.mem_map.mp known
    cases same
    exact ⟨List.mk_mem_zipIdx_iff_getElem?.mp indexed, .item⟩
  · next order value members =>
    obtain ⟨member, member_ok, same⟩ := List.mem_map.mp known
    cases same
    exact ⟨Members.find?_of_mem (uniqueKeys_object_iff.mp unique).1 member_ok, .entry⟩
  · next name members =>
    obtain ⟨⟨key, shape⟩, field_ok, same⟩ := List.mem_map.mp known
    simp only [Component.field] at same
    split at same
    · next found =>
      cases same
      exact ⟨found, .field field_ok⟩
    · contradiction
  · contradiction

theorem fault_of_missing {shape : Shape} {json : Json} {key : String}
    (known : .missing key ∈ components schema shape json) :
    Fault schema shape json (.missingField key) := by
  unfold components at known
  split at known
  · obtain ⟨_, _, same⟩ := List.mem_map.mp known
    contradiction
  · obtain ⟨_, _, same⟩ := List.mem_map.mp known
    contradiction
  · next name members =>
    obtain ⟨⟨key, shape⟩, field_ok, same⟩ := List.mem_map.mp known
    simp only [Component.field] at same
    split at same
    · contradiction
    · next absent =>
      cases same
      exact .missing (List.mem_map_of_mem field_ok) absent
  · contradiction

/-- The places around the error lead to a value, and the error itself is that value's own. -/
def Located (schema : Schema) (shape : Shape) (json : Json) (error : ConversionError) : Prop :=
  ∃ place component, json.find? error.steps = some place ∧
    shape.Asks schema error.steps component ∧
    place.decode schema component = .error error.root ∧ Fault schema component place error.root

theorem Located.of_fault {shape : Shape} {json : Json} {error : ConversionError}
    (failed : json.decode schema shape = .error error) (fault : Fault schema shape json error) :
    Located schema shape json error := by
  have bare : error.steps = [] ∧ error.root = error := by
    cases fault <;> exact ⟨rfl, rfl⟩
  rw [Located, bare.1, bare.2]
  exact ⟨json, shape, rfl, .here shape, failed, fault⟩

theorem Located.under {shape inner : Shape} {json part : Json} {error : ConversionError} {step : Step}
    (located : Located schema inner part error) (found : json.step? step = some part)
    (asks : ∀ {steps component}, inner.Asks schema steps component →
      shape.Asks schema (step :: steps) component) :
    Located schema shape json (.under step error) := by
  obtain ⟨place, component, reached, asked, same, fault⟩ := located
  rw [Located, ConversionError.steps_under, ConversionError.root_under]
  refine ⟨place, component, ?_, asks asked, same, fault⟩
  rw [find?_cons, found]
  exact reached

theorem Located.of_other_kind {shape : Shape} {kind : String} {json : Json}
    {error : ConversionError} (asked : shape.kind? = some kind) (other : json.typeName ≠ kind)
    (failed : json.decode schema shape = .error error) : Located schema shape json error := by
  have same := (decode_of_other_kind asked other).symm.trans failed
  cases same
  exact .of_fault failed (.kind asked other)

theorem fault_of_toSingle {value : Double} {error : ConversionError}
    (failed : (number value).toSingle = .error error) :
    Fault schema .single (.number value) error := by
  rw [toSingle_number] at failed
  split at failed
  · contradiction
  · next beyond =>
    cases failed
    exact .single beyond

theorem fault_of_toInteger {type : IntegerType} {value : Double} {error : ConversionError}
    (failed : (number value).toInteger type = .error error) :
    Fault schema (.integer type) (.number value) error := by
  rw [toInteger_number] at failed
  split at failed
  · contradiction
  · next beyond =>
    cases failed
    exact .integer beyond

theorem fault_of_toChar {value : String} {error : ConversionError}
    (failed : (string value).toChar = .error error) : Fault schema .char (.string value) error := by
  simp only [toChar] at failed
  split at failed
  · contradiction
  · next several =>
    cases failed
    refine .char fun single => ?_
    obtain ⟨c, split⟩ := List.length_eq_one_iff.mp single
    exact several c split

def LocatesErrors (schema : Schema) (json : Json) : Prop :=
  ∀ shape error, json.decode schema shape = .error error → Located schema shape json error

theorem located_container {shape : Shape} {kind : String} {json : Json} {error : ConversionError}
    (container : shape.Container kind) (unique : json.UniqueKeys)
    (parts_ok : ∀ step part, json.step? step = some part → LocatesErrors schema part)
    (failed : json.decode schema shape = .error error) : Located schema shape json error := by
  rcases ((decode_container container unique).2 error).mp failed with
    ⟨other, _⟩ | ⟨_, before, component, after, split, _, component_failed⟩
  · exact .of_other_kind container.kind? other failed
  have known : component ∈ components schema shape json := by simp [split]
  cases component with
  | part step inner part =>
    obtain ⟨inner_error, part_failed, rfl⟩ := mapError_eq_error_iff.mp component_failed
    obtain ⟨found, asks⟩ := step?_of_component unique known
    exact (parts_ok step part found inner inner_error part_failed).under found asks
  | missing key =>
    cases component_failed
    exact .of_fault failed (fault_of_missing known)

theorem locatesErrors_of_parts {json : Json} (unique : json.UniqueKeys)
    (parts_ok : ∀ step part, json.step? step = some part → LocatesErrors schema part) :
    LocatesErrors schema json := by
  intro shape error failed
  -- An option asks the same tree again; all other shapes go on to its parts.
  induction shape with
  | json => cases json <;> contradiction
  | unit =>
    cases json with
    | null => contradiction
    | _ => exact .of_other_kind rfl (by simp [typeName]) failed
  | bool =>
    cases json with
    | bool => contradiction
    | _ => exact .of_other_kind rfl (by simp [typeName]) failed
  | double =>
    cases json with
    | number => contradiction
    | _ => exact .of_other_kind rfl (by simp [typeName]) failed
  | single =>
    cases json with
    | number => exact .of_fault failed (fault_of_toSingle failed)
    | _ => exact .of_other_kind rfl (by simp [typeName]) failed
  | integer type =>
    cases json with
    | number => exact .of_fault failed (fault_of_toInteger failed)
    | _ => exact .of_other_kind rfl (by simp [typeName]) failed
  | text =>
    cases json with
    | string => contradiction
    | _ => exact .of_other_kind rfl (by simp [typeName]) failed
  | char =>
    cases json with
    | string => exact .of_fault failed (fault_of_toChar failed)
    | _ => exact .of_other_kind rfl (by simp [typeName]) failed
  | option inner ih =>
    rw [decode_option] at failed
    split at failed
    · contradiction
    · obtain ⟨place, component, reached, asked, same⟩ := ih (map_eq_error_iff.mp failed)
      exact ⟨place, component, reached, .option asked, same⟩
  | list item => exact located_container (.list item) unique parts_ok failed
  | map order value => exact located_container (.map order value) unique parts_ok failed
  | record name => exact located_container (.record name) unique parts_ok failed

theorem locatesErrors_of_uniqueKeys {json : Json} (unique : json.UniqueKeys) :
    LocatesErrors schema json := by
  induction unique with
  | array items_ok ih =>
    refine locatesErrors_of_parts (.array items_ok) fun step part found => ?_
    cases step with
    | index => exact ih part (List.mem_of_getElem? found)
    | key => contradiction
  | object unique members_ok ih =>
    refine locatesErrors_of_parts (.object unique members_ok) fun step part found => ?_
    cases step with
    | key => exact ih _ (Members.mem_of_find? found)
    | index => contradiction
  | null => exact locatesErrors_of_parts .null nofun
  | bool value => exact locatesErrors_of_parts (.bool value) nofun
  | number value => exact locatesErrors_of_parts (.number value) nofun
  | string value => exact locatesErrors_of_parts (.string value) nofun

theorem decode_error_located {shape : Shape} {json : Json} {error : ConversionError}
    (unique : json.UniqueKeys) (failed : json.decode schema shape = .error error) :
    ∃ place component, json.find? error.steps = some place ∧
      shape.Asks schema error.steps component ∧
      place.decode schema component = .error error.root ∧
      Fault schema component place error.root :=
  locatesErrors_of_uniqueKeys unique shape error failed

def orderSchema : Schema :=
  [("order", [("id", .text), ("lines", .list (.map .insertion (.option (.integer ⟨false, .w8⟩))))])]

def order : Json :=
  .object [("lines", .array [.object [], .object [("a", .null), ("b", .number (.infinity false))]]),
    ("id", .string "é")]

def tooMany : ConversionError :=
  .inField "lines" (.inElement 1 (.inField "b" (.numberOutOfRange "u8" (.infinity false))))

theorem order_unique : order.UniqueKeys := by
  have line : (object [("a", .null), ("b", .number (.infinity false))]).UniqueKeys :=
    .object (by decide) (by simpa using ⟨.null, .number _⟩)
  have lines : (array [.object [], .object [("a", .null), ("b", .number (.infinity false))]]).UniqueKeys :=
    .array (by simpa using ⟨.object (by decide) (by simp), line⟩)
  exact .object (by decide) (by simpa using ⟨lines, .string _⟩)

theorem decode_error_located_order :
    order.UniqueKeys ∧ order.decode orderSchema (.record "order") = .error tooMany ∧
      ∃ place component, order.find? tooMany.steps = some place ∧
        Shape.Asks orderSchema (.record "order") tooMany.steps component ∧
        place.decode orderSchema component = .error tooMany.root ∧
        Fault orderSchema component place tooMany.root := by
  have failed : order.decode orderSchema (.record "order") = .error tooMany := by rfl
  exact ⟨order_unique, failed, decode_error_located order_unique failed⟩

end Json

end CombinatorJson
