import CombinatorJson.Members
import CombinatorJson.Numeric.Binary

set_option autoImplicit false

namespace CombinatorJson

inductive Json where
  | null
  | bool (value : Bool)
  | number (value : Double)
  | string (value : String)
  | array (items : List Json)
  | object (members : List (String × Json))

inductive Step where
  | key (name : String)
  | index (position : Nat)
deriving DecidableEq

instance : Inhabited Json := ⟨.null⟩

namespace Json

def ofPairs (pairs : List (String × Json)) : Json :=
  .object (Members.ofPairs pairs)

def typeName : Json → String
  | null => "null"
  | bool _ => "bool"
  | number _ => "number"
  | string _ => "string"
  | array _ => "array"
  | object _ => "object"

def isNull : Json → Bool
  | null => true
  | _ => false

def asNull? : Json → Option Unit
  | null => some ()
  | _ => none

def asBool? : Json → Option Bool
  | bool value => some value
  | _ => none

def asNumber? : Json → Option Double
  | number value => some value
  | _ => none

def asString? : Json → Option String
  | string value => some value
  | _ => none

def asArray? : Json → Option (List Json)
  | array items => some items
  | _ => none

def asObject? : Json → Option (Members Json)
  | object members => some members
  | _ => none

def step? : Step → Json → Option Json
  | .key name, object members => Members.find? name members
  | .index position, array items => items[position]?
  | _, _ => none

def find? (path : List Step) (json : Json) : Option Json :=
  path.foldl (fun place step => place.bind (step? step)) (some json)

mutual

/-- Numbers compare as numbers, and the order of members does not matter. -/
def equal : Json → Json → Bool
  | null, null => true
  | bool left, bool right => left == right
  | number left, number right => left.equal right
  | string left, string right => left == right
  | array left, array right => equalItems left right
  | object left, object right => left.length == right.length && equalMembers left right
  | _, _ => false

def equalItems : List Json → List Json → Bool
  | [], [] => true
  | left :: rest, right :: others => equal left right && equalItems rest others
  | _, _ => false

def equalMembers : List (String × Json) → Members Json → Bool
  | [], _ => true
  | (key, value) :: rest, others =>
    (match Members.find? key others with
      | some other => equal value other
      | none => false) && equalMembers rest others

end

instance : BEq Json where
  beq := equal

end Json

end CombinatorJson
