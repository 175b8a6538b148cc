import CombinatorJson.ConversionError
import CombinatorJson.Numeric.Nearest
import CombinatorJson.Text.Characters
import CombinatorJson.Typed.Shape

set_option autoImplicit false

namespace CombinatorJson

namespace Json

def mismatch (expected : String) (json : Json) : ConversionError :=
  .typeMismatch expected json.typeName

def toUnit (json : Json) : Except ConversionError Datum :=
  match json with
  | .null => .ok .unit
  | _ => .error (mismatch "null" json)

def toBool (json : Json) : Except ConversionError Datum :=
  match json with
  | .bool value => .ok (.bool value)
  | _ => .error (mismatch "bool" json)

def toDouble (json : Json) : Except ConversionError Double :=
  match json with
  | .number value => .ok value
  | _ => .error (mismatch "number" json)

def toSingle (json : Json) : Except ConversionError Datum := do
  let value ← json.toDouble
  match Single.ofDouble? value with
  | some single => return .single single
  | none => throw (.numberOutOfRange "f32" value)

def toInteger (type : IntegerType) (json : Json) : Except ConversionError Datum := do
  let value ← json.toDouble
  match type.ofDouble? value with
  | some integer => return .integer integer
  | none => throw (.numberOutOfRange type.name value)

def toText (json : Json) : Except ConversionError Datum :=
  match json with
  | .string value => .ok (.text value)
  | _ => .error (mismatch "string" json)

def toChar (json : Json) : Except ConversionError Datum :=
  match json with
  | .string value =>
    match value.toList with
    | [c] => .ok (.char c)
    | chars =>
      let shown := String.ofList (Quoted.quote chars)
      .error (.custom s!"expected a single character, found {shown}")
  | _ => .error (mismatch "string" json)

end Json

end CombinatorJson
