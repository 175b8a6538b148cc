import CombinatorJson.Json.Text

set_option autoImplicit false

namespace CombinatorJson

/-- What a format does with the parts of a tree. It takes arrays and objects part by part, between
a beginning that tells the number of parts and an end, and may fail at any of them. -/
structure Serializer (ε α : Type) where
  Sequence : Type
  Mapping : Type
  unit : Except ε α
  bool : Bool → Except ε α
  number : Double → Except ε α
  string : String → Except ε α
  beginSequence (length : Nat) : Except ε Sequence
  element : Sequence → α → Except ε Sequence
  endSequence : Sequence → Except ε α
  beginMapping (length : Nat) : Except ε Mapping
  entry : Mapping → String → α → Except ε Mapping
  endMapping : Mapping → Except ε α

namespace Json

variable {ε α : Type}

mutual

def serialize (serializer : Serializer ε α) : Json → Except ε α
  | null => serializer.unit
  | bool value => serializer.bool value
  | number value => serializer.number value
  | string value => serializer.string value
  | array items => do
    let begun ← serializer.beginSequence items.length
    let written ← serializeItems serializer begun items
    serializer.endSequence written
  | object members => do
    let begun ← serializer.beginMapping members.length
    let written ← serializeMembers serializer begun members
    serializer.endMapping written

def serializeItems (serializer : Serializer ε α) :
    serializer.Sequence → List Json → Except ε serializer.Sequence
  | written, [] => .ok written
  | written, item :: rest => do
    let result ← serialize serializer item
    let more ← serializer.element written result
    serializeItems serializer more rest

def serializeMembers (serializer : Serializer ε α) :
    serializer.Mapping → List (String × Json) → Except ε serializer.Mapping
  | written, [] => .ok written
  | written, (key, value) :: rest => do
    let result ← serialize serializer value
    let more ← serializer.entry written key result
    serializeMembers serializer more rest

end

end Json

structure Consumer (α : Type) where
  null : α
  bool : Bool → α
  number : Double → α
  string : String → α
  array : List α → α
  object : List (String × α) → α

namespace Consumer

variable {α : Type}

/-- Never fails, and keeps the parts, last one first, until the end. -/
def serializer (consumer : Consumer α) : Serializer Empty α where
  Sequence := List α
  Mapping := List (String × α)
  unit := .ok consumer.null
  bool value := .ok (consumer.bool value)
  number value := .ok (consumer.number value)
  string value := .ok (consumer.string value)
  beginSequence _ := .ok []
  element written item := .ok (item :: written)
  endSequence written := .ok (consumer.array written.reverse)
  beginMapping _ := .ok []
  entry written key value := .ok ((key, value) :: written)
  endMapping written := .ok (consumer.object written.reverse)

def compactText (finite : Double → List Char) : Consumer (List Char) where
  null := "null".toList
  bool value := if value then "true".toList else "false".toList
  number value := if value.isFinite then finite value else "null".toList
  string value := Json.stringChars value
  array items := '[' :: [','].intercalate items ++ [']']
  object members :=
    '{' :: [','].intercalate (members.map fun (key, value) => Json.stringChars key ++ ':' :: value)
      ++ ['}']

end Consumer

def Json.fold {α : Type} (consumer : Consumer α) (json : Json) : α :=
  match json.serialize consumer.serializer with
  | .ok result => result
  | .error never => nomatch never

end CombinatorJson
