import CombinatorJson.Numeric.Nearest
import CombinatorJson.Typed.Shape

set_option autoImplicit false

namespace CombinatorJson

namespace Datum

mutual

def toJson : Datum → Json
  | unit => .null
  | bool value => .bool value
  | double value => .number value
  | single value => .number value.convert
  | integer value => .number (.ofInt value)
  | text value => .string value
  | char value => .string value.toString
  | json value => value
  | absent => .null
  | present value => value.toJson
  | list items => .array (itemsToJson items)
  | map entries => .ofPairs (membersToJson entries)
  | record fields => .ofPairs (membersToJson fields)

def itemsToJson : List Datum → List Json
  | [] => []
  | item :: rest => item.toJson :: itemsToJson rest

def membersToJson : List (String × Datum) → List (String × Json)
  | [] => []
  | (key, value) :: rest => (key, value.toJson) :: membersToJson rest

end

end Datum

end CombinatorJson
