import CombinatorJson.Json.Basic
import CombinatorJson.Numeric.Numeral
import CombinatorJson.Parser
import CombinatorJson.SyntaxError
import CombinatorJson.Text.Utf16

/-!
White space may stand between any two tokens, and a value does not take the white space after it.
The productions of containers take the parser of their values, so that a grammar with other rules
can hold them too.
-/

set_option autoImplicit false

namespace CombinatorJson

namespace Grammar

open CombinatorJson.Parser

variable {N : Type → Type}

def whitespace : Parser N Unit :=
  skipMany (oneOf " \t\n\r")

def null : Parser N Json :=
  mapTo Json.null (literal "null")

def bool : Parser N Json :=
  orElse (mapTo (Json.bool true) (literal "true")) (mapTo (Json.bool false) (literal "false"))

def digits : Parser N (List Char) :=
  many1 (satisfy Char.isDigit)

def fraction : Parser N (List Char) :=
  seqRight (char '.') digits

def exponent : Parser N (List Char) :=
  seqRight (seqRight (oneOf "eE") (optional (oneOf "+-"))) digits

def numberLiteral : Parser N (Option (List Char)) :=
  seqRight (seqRight (seqRight (optional (char '-')) digits) (optional fraction))
    (optional exponent)

def readNumber (text : String) : Except String Json :=
  match Numeral.read? text.toList with
  | some numeral => .ok (.number numeral.toBinary)
  | none => .error "number: invalid float literal"

def number : Parser N Json :=
  tryMap readNumber (recognize numberLiteral)

/-- A piece of a string literal: a character, or a unit of UTF-16. -/
inductive Fragment where
  | char (value : Char)
  | unit (value : Nat)
deriving DecidableEq

def assembleFrom : List Nat → List Fragment → List Char
  -- Every run of units is decoded by itself; `units` holds the run so far, last unit first.
  | units, [] => Utf16.decode units.reverse
  | units, .unit value :: rest => assembleFrom (value :: units) rest
  | units, .char value :: rest => Utf16.decode units.reverse ++ value :: assembleFrom [] rest

def assemble (fragments : List Fragment) : String :=
  String.ofList (assembleFrom [] fragments)

def unescape (c : Char) : Char :=
  match c with
  | 'b' => '\x08'
  | 'f' => '\x0c'
  | 'n' => '\n'
  | 'r' => '\r'
  | 't' => '\t'
  | other => other

def isHexDigit (c : Char) : Bool :=
  c.isDigit || ('a' ≤ c && c ≤ 'f') || ('A' ≤ c && c ≤ 'F')

def hexValue (c : Char) : Nat :=
  if c.isDigit then c.toNat - '0'.toNat
  else if 'a' ≤ c then c.toNat - 'a'.toNat + 10
  else c.toNat - 'A'.toNat + 10

def hexNumber (digits : List Char) : Nat :=
  digits.foldl (fun value digit => 16 * value + hexValue digit) 0

def plainChar : Parser N Fragment :=
  map Fragment.char (satisfy fun c => c != '"' && c != '\\')

def simpleEscape : Parser N Fragment :=
  map (fun c => Fragment.char (unescape c)) (oneOf "\"\\/bfnrt")

def unicodeEscape : Parser N Fragment :=
  map (fun digits => Fragment.unit (hexNumber digits))
    (seqRight (char 'u') (count 4 (satisfy isHexDigit)))

def escape : Parser N Fragment :=
  seqRight (char '\\') (orElse simpleEscape unicodeEscape)

def stringLiteral : Parser N String :=
  map assemble (between (char '"') (many (orElse plainChar escape)) (char '"'))

def string : Parser N Json :=
  map Json.string stringLiteral

def arrayElement : String := "array element"
def objectKey : String := "object key"
def objectValue : String := "object value"

def token (c : Char) : Parser N Char :=
  seqLeft (char c) whitespace

def array (value : Parser N Json) : Parser N Json :=
  let element := seqLeft (label arrayElement value) whitespace
  map Json.array (between (token '[') (sepBy element (token ',')) (char ']'))

def key : Parser N String :=
  seqLeft (seqLeft (seqLeft (label objectKey stringLiteral) whitespace) (char ':')) whitespace

def pair (value : Parser N Json) : Parser N (String × Json) :=
  zip key (seqLeft (label objectValue value) whitespace)

def object (value : Parser N Json) : Parser N Json :=
  map Json.ofPairs (between (token '{') (sepBy (pair value) (token ',')) (char '}'))

def valueOver (value : Parser N Json) : Parser N Json :=
  choice [object value, array value, string, number, bool, null]

inductive Nonterminal : Type → Type where
  | value : Nonterminal Json

def value : Parser Nonterminal Json :=
  valueOver (ref Nonterminal.value)

def rules : {β : Type} → Nonterminal β → Parser Nonterminal β
  | _, .value => value

def document : Parser Nonterminal Json :=
  seqLeft (seqLeft (seqRight whitespace value) whitespace) endOfInput

end Grammar

namespace Json

def isOpening (c : Char) : Bool :=
  c = '[' || c = '{'

def depthBound (text : List Char) : Nat :=
  -- Values nest no deeper than the text has opening brackets.
  text.countP isOpening + 1

def documentReply? (text : List Char) : Option (Reply Json) :=
  Grammar.document.run Grammar.rules (depthBound text) (Cursor.start 0 text)

/-- Reads a whole text, with white space around the value. The depth never runs out, so the last
answer is never given. -/
def parse (text : String) : Except SyntaxError Json :=
  match documentReply? text.toList with
  | some (.done _ output) => .ok output
  | some (.fail remaining contexts message) => .error (.ofCursor remaining contexts message)
  | none => .error (.ofCursor (.start 0 text.toList) [] "nested too deeply")

end Json

end CombinatorJson
