import CombinatorJson.Typed.Scalar

/-!
A value of the wrong kind is reported before its parts are looked at. Of several parts that fail the
first is reported: by position in arrays, by place in the object for maps, and in the order of the
schema for records, whose unknown members are ignored.
-/

set_option autoImplicit false

namespace CombinatorJson

namespace Json

abbrev Decoder := Shape → Except ConversionError Datum

def decodeItems (item : Shape) : Nat → List Decoder → Except ConversionError (List Datum)
  | _, [] => .ok []
  | index, decoder :: rest => do
    let value ← (decoder item).mapError (.inElement index)
    let values ← decodeItems item (index + 1) rest
    return value :: values

def decodeEntries (shape : Shape) :
    List (String × Decoder) → Except ConversionError (List (String × Datum))
  | [] => .ok []
  | (key, decoder) :: rest => do
    let value ← (decoder shape).mapError (.inField key)
    let values ← decodeEntries shape rest
    return (key, value) :: values

def decodeFields (members : Members Decoder) :
    List (String × Shape) → Except ConversionError (List (String × Datum))
  | [] => .ok []
  | (key, shape) :: rest => do
    let value ← match members.find? key with
      | none => .error (.missingField key)
      | some decoder => (decoder shape).mapError (.inField key)
    let values ← decodeFields members rest
    return (key, value) :: values

def mapOfEntries (order : KeyOrder) (entries : List (String × Datum)) : Datum :=
  match order with
  | .insertion => .map (Members.ofPairs entries)
  | .sorted => .map (Members.sortedOfPairs entries)

def convert (schema : Schema) (json : Json) (items : List Decoder) (members : Members Decoder) :
    Decoder
  | .unit => json.toUnit
  | .bool => json.toBool
  | .double => json.toDouble.map .double
  | .single => json.toSingle
  | .integer type => json.toInteger type
  | .text => json.toText
  | .char => json.toChar
  | .json => .ok (.json json)
  | .option inner =>
    if json.isNull then .ok .absent else (convert schema json items members inner).map .present
  | .list item =>
    match json with
    | .array _ => (decodeItems item 0 items).map .list
    | _ => .error (json.mismatch "array")
  | .map order value =>
    match json with
    | .object _ => (decodeEntries value members).map (mapOfEntries order)
    | _ => .error (json.mismatch "object")
  | .record name =>
    match json with
    | .object _ => (decodeFields members (schema.fields name)).map .record
    | _ => .error (json.mismatch "object")

mutual

def decoder (schema : Schema) : Json → Decoder
  | .array items => convert schema (.array items) (itemDecoders schema items) []
  | .object members => convert schema (.object members) [] (memberDecoders schema members)
  | leaf => convert schema leaf [] []

def itemDecoders (schema : Schema) : List Json → List Decoder
  | [] => []
  | item :: rest => decoder schema item :: itemDecoders schema rest

def memberDecoders (schema : Schema) : List (String × Json) → Members Decoder
  | [] => []
  | (key, value) :: rest => (key, decoder schema value) :: memberDecoders schema rest

end

def decode (schema : Schema) (shape : Shape) (json : Json) : Except ConversionError Datum :=
  decoder schema json shape

theorem itemDecoders_eq_map (schema : Schema) (items : List Json) :
    itemDecoders schema items = items.map (decoder schema) := by
  induction items with
  | nil => rfl
  | cons item rest ih => simp [itemDecoders, ih]

theorem memberDecoders_eq_map (schema : Schema) (members : List (String × Json)) :
    memberDecoders schema members =
      members.map fun (key, value) => (key, decoder schema value) := by
  induction members with
  | nil => rfl
  | cons member rest ih => simp [memberDecoders, ih]

theorem decode_option (schema : Schema) (inner : Shape) (json : Json) :
    json.decode schema (.option inner) =
      if json.isNull then .ok .absent else (json.decode schema inner).map .present := by
  cases json <;> rfl

def field (schema : Schema) (shape : Shape) (key : String) (json : Json) :
    Except ConversionError Datum :=
  match json with
  | .object members =>
    match Members.find? key members with
    | none => .error (.missingField key)
    | some value => (value.decode schema shape).mapError (.inField key)
  | _ => .error (json.mismatch "object")

def optionalField (schema : Schema) (shape : Shape) (key : String) (json : Json) :
    Except ConversionError (Option Datum) :=
  match json with
  | .object members =>
    match Members.find? key members with
    | none => .ok none
    | some .null => .ok none
    | some value => ((value.decode schema shape).map some).mapError (.inField key)
  | _ => .error (json.mismatch "object")

def fieldOr (schema : Schema) (shape : Shape) (key : String) (default : Datum) (json : Json) :
    Except ConversionError Datum :=
  (json.optionalField schema shape key).map fun value => value.getD default

end Json

end CombinatorJson
