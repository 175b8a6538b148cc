import CombinatorJson.Json.Fold
import CombinatorJson.Numeric.Nearest

set_option autoImplicit false

namespace CombinatorJson

inductive Interchange where
  | null
  | bool (value : Bool)
  | integer (value : Int)
  | double (value : Double)
  | string (value : String)
  | array (items : List Interchange)
  | object (members : List (String × Interchange))

namespace Interchange

instance : Inhabited Interchange := ⟨.null⟩

def ofPairs (pairs : List (String × Interchange)) : Interchange :=
  .object (Members.sortedOfPairs pairs)

def ofDouble (value : Double) : Interchange :=
  -- The model has no number that is not finite.
  if value.isFinite then .double value else .null

def consumer : Consumer Interchange where
  null := .null
  bool := .bool
  number := ofDouble
  string := .string
  array := .array
  object := ofPairs

mutual

def toJson : Interchange → Json
  | null => .null
  | bool value => .bool value
  | integer value => .number (.ofInt value)
  | double value => .number value
  | string value => .string value
  | array items => .array (itemsToJson items)
  | object members => .ofPairs (membersToJson members)

def itemsToJson : List Interchange → List Json
  | [] => []
  | item :: rest => item.toJson :: itemsToJson rest

def membersToJson : List (String × Interchange) → List (String × Json)
  | [] => []
  | (key, value) :: rest => (key, value.toJson) :: membersToJson rest

end

end Interchange

namespace Json

mutual

def toInterchange : Json → Interchange
  | null => .null
  | bool value => .bool value
  | number value => .ofDouble value
  | string value => .string value
  | array items => .array (itemsToInterchange items)
  | object members => .ofPairs (membersToInterchange members)

def itemsToInterchange : List Json → List Interchange
  | [] => []
  | item :: rest => item.toInterchange :: itemsToInterchange rest

def membersToInterchange : List (String × Json) → List (String × Interchange)
  | [] => []
  | (key, value) :: rest => (key, value.toInterchange) :: membersToInterchange rest

end

end Json

end CombinatorJson
