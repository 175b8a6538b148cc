import CombinatorJson.Json.Grammar
import CombinatorJson.Json.Text
import CombinatorJson.Typed.Decode
import CombinatorJson.Typed.Encode

set_option autoImplicit false

namespace CombinatorJson

inductive DecodeError where
  | malformed (error : SyntaxError)
  | unfit (error : ConversionError)
deriving DecidableEq

namespace DecodeError

def text : DecodeError → String
  | malformed error => error.text
  | unfit error => error.text

def asSyntax? : DecodeError → Option SyntaxError
  | malformed error => some error
  | unfit _ => none

def asConversion? : DecodeError → Option ConversionError
  | malformed _ => none
  | unfit error => some error

end DecodeError

def decode (schema : Schema) (shape : Shape) (text : String) : Except DecodeError Datum := do
  let json ← (Json.parse text).mapError .malformed
  (json.decode schema shape).mapError .unfit

def encode (datum : Datum) : String :=
  datum.toJson.text

end CombinatorJson
