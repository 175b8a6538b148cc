import CombinatorJson.Numeric.Shortest

set_option autoImplicit false

namespace CombinatorJson

inductive ConversionError where
  | typeMismatch (expected actual : String)
  | missingField (key : String)
  | numberOutOfRange (target : String) (value : Double)
  | custom (message : String)
  | inField (key : String) (inner : ConversionError)
  | inElement (index : Nat) (inner : ConversionError)
deriving DecidableEq

namespace ConversionError

def text : ConversionError → String
  | typeMismatch expected actual => s!"type mismatch: expected {expected}, found {actual}"
  | missingField key => "missing field `" ++ key ++ "`"
  | numberOutOfRange target value =>
    s!"number {String.ofList value.text} does not fit in {target}"
  | custom message => message
  | inField key inner => "in field `" ++ key ++ "`: " ++ inner.text
  | inElement index inner => s!"in element {index}: {inner.text}"

def root : ConversionError → ConversionError
  | inField _ inner => inner.root
  | inElement _ inner => inner.root
  | error => error

def pathFrom (path : List Char) : ConversionError → List Char
  | inField key inner =>
    -- A point stands before a key that follows anything.
    inner.pathFrom (path ++ (if path.isEmpty then [] else ['.']) ++ key.toList)
  | inElement index inner => inner.pathFrom (path ++ '[' :: Nat.toDigits 10 index ++ [']'])
  | _ => path

def path (error : ConversionError) : String :=
  String.ofList (error.pathFrom [])

def code : ConversionError → String
  | typeMismatch .. => "convert::type_mismatch"
  | missingField .. => "convert::missing_field"
  | numberOutOfRange .. => "convert::number_out_of_range"
  | custom .. => "convert::custom"
  | inField .. => "convert::field"
  | inElement .. => "convert::element"

end ConversionError

end CombinatorJson
