import CombinatorJson.Json.Basic
import CombinatorJson.Numeric.Integer

set_option autoImplicit false

namespace CombinatorJson

inductive KeyOrder where
  | insertion
  | sorted
deriving DecidableEq

inductive Shape where
  | unit
  | bool
  | double
  | single
  | integer (type : IntegerType)
  | text
  | char
  | json
  | option (inner : Shape)
  | list (item : Shape)
  | map (order : KeyOrder) (value : Shape)
  | record (name : String)
deriving DecidableEq

/-- The fields of the records that shapes may name. -/
abbrev Schema := Members (Members Shape)

namespace Schema

def fields (schema : Schema) (name : String) : Members Shape :=
  (Members.find? name schema).getD []

end Schema

inductive Datum where
  | unit
  | bool (value : Bool)
  | double (value : Double)
  | single (value : Single)
  | integer (value : Int)
  | text (value : String)
  | char (value : Char)
  | json (value : Json)
  | absent
  | present (value : Datum)
  | list (items : List Datum)
  | map (entries : List (String × Datum))
  | record (fields : List (String × Datum))

namespace Shape

/-- Integers of 64 bits have no JSON form, since doubles cannot hold all of them. -/
def isEncodable : Shape → Bool
  | integer type => type.isExact
  | option inner => inner.isEncodable
  | list item => item.isEncodable
  | map _ value => value.isEncodable
  | _ => true

/-- The default value of a shape, in which records nest at most `depth` deep. -/
def defaultWithin (schema : Schema) (depth : Nat) : Shape → Option Datum
  | unit => some .unit
  | bool => some (.bool false)
  | double => some (.double (.zero false))
  | single => some (.single (.zero false))
  | integer _ => some (.integer 0)
  | text => some (.text "")
  | char => some (.char '\x00')
  | json => some (.json .null)
  | option _ => some .absent
  | list _ => some (.list [])
  | map _ _ => some (.map [])
  | record name =>
    match depth with
    | 0 => none
    | depth + 1 => do
      let fields ← (schema.fields name).mapM fun (key, shape) => do
        return (key, ← defaultWithin schema depth shape)
      return .record fields

def default? (schema : Schema) (shape : Shape) : Option Datum :=
  defaultWithin schema (schema.length + 1) shape

end Shape

end CombinatorJson
