import CombinatorJson.Json.Basic
import CombinatorJson.Numeric.Shortest

set_option autoImplicit false

namespace CombinatorJson

namespace Json

def escapeChar (c : Char) : List Char :=
  match c with
  | '"' => ['\\', '"']
  | '\\' => ['\\', '\\']
  | '\n' => ['\\', 'n']
  | '\r' => ['\\', 'r']
  | '\t' => ['\\', 't']
  | '\x08' => ['\\', 'b']
  | '\x0c' => ['\\', 'f']
  | c =>
    if c.toNat < 0x20 then
      ['\\', 'u', '0', '0', Nat.digitChar (c.toNat / 16), Nat.digitChar (c.toNat % 16)]
    else
      [c]

def stringChars (value : String) : List Char :=
  '"' :: value.toList.flatMap escapeChar ++ ['"']

/-- Infinities are written as a literal that overflows to them when read, and NaN, which no
literal denotes, as `null`. -/
def numberChars (value : Double) : List Char :=
  match value with
  | .nan => "null".toList
  | .signed negative rank =>
    if rank.val = Format.binary64.infinityRank then
      if negative then "-1e999".toList else "1e999".toList
    else
      value.text

mutual

def chars : Json → List Char
  | null => "null".toList
  | bool value => if value then "true".toList else "false".toList
  | number value => numberChars value
  | string value => stringChars value
  | array items => '[' :: [','].intercalate (itemChars items) ++ [']']
  | object members => '{' :: [','].intercalate (memberChars members) ++ ['}']

def itemChars : List Json → List (List Char)
  | [] => []
  | item :: rest => chars item :: itemChars rest

def memberChars : List (String × Json) → List (List Char)
  | [] => []
  | (key, value) :: rest => (stringChars key ++ ':' :: chars value) :: memberChars rest

end

def text (json : Json) : String :=
  String.ofList json.chars

end Json

end CombinatorJson
