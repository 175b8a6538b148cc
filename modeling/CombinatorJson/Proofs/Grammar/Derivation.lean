import CombinatorJson.Json.Grammar

set_option autoImplicit false

namespace CombinatorJson

/-- One member for each key, in order of first occurrence and with the last value. -/
def Members.Merges {α : Type} (pairs : List (String × α)) (members : Members α) : Prop :=
  members.keys = (Members.keys pairs).eraseDups ∧
    ∀ key, members.find? key = Members.find? key pairs.reverse

namespace Grammar

def IsWhitespace (text : List Char) : Prop :=
  ∀ c ∈ text, c ∈ [' ', '\t', '\n', '\r']

def Digits (text : List Char) : Prop :=
  text ≠ [] ∧ ∀ c ∈ text, c.isDigit = true

inductive SignText : List Char → Bool → Prop where
  | absent : SignText [] false
  | minus : SignText ['-'] true

inductive FractionText : List Char → List Char → Prop where
  | absent : FractionText [] []
  | present {digits : List Char} (digits_ok : Digits digits) : FractionText ('.' :: digits) digits

inductive ExponentSignText : List Char → Bool → Prop where
  | absent : ExponentSignText [] false
  | plus : ExponentSignText ['+'] false
  | minus : ExponentSignText ['-'] true

def decimalValue (digits : List Char) : Nat :=
  Nat.ofDigitChars 10 digits 0

inductive ExponentText : List Char → Int → Prop where
  | absent : ExponentText [] 0
  | present {mark : Char} {sign digits : List Char} {negative : Bool}
      (mark_ok : mark ∈ ['e', 'E']) (sign_ok : ExponentSignText sign negative)
      (digits_ok : Digits digits) :
      ExponentText (mark :: (sign ++ digits))
        (if negative then -(decimalValue digits : Int) else decimalValue digits)

/-- The digits of the fraction count towards the whole, at a smaller power of ten. -/
inductive NumberText : List Char → Numeral → Prop where
  | mk {sign whole fraction fractionDigits exponent : List Char} {negative : Bool} {power : Int}
      (sign_ok : SignText sign negative) (whole_ok : Digits whole)
      (fraction_ok : FractionText fraction fractionDigits)
      (exponent_ok : ExponentText exponent power) :
      NumberText (sign ++ whole ++ fraction ++ exponent)
        ⟨negative, decimalValue (whole ++ fractionDigits), power - fractionDigits.length⟩

def simpleEscapes : List (Char × Char) :=
  [('"', '"'), ('\\', '\\'), ('/', '/'), ('b', '\x08'), ('f', '\x0c'), ('n', '\n'), ('r', '\r'),
    ('t', '\t')]

def hexDigits : List (Char × Nat) :=
  "0123456789abcdef".toList.zipIdx ++ "ABCDEF".toList.zipIdx 10

inductive PieceText : List Char → Fragment → Prop where
  | plain {c : Char} (no_quote : c ≠ '"') (no_backslash : c ≠ '\\') : PieceText [c] (.char c)
  | simple {c meant : Char} (escape : (c, meant) ∈ simpleEscapes) :
      PieceText ['\\', c] (.char meant)
  | unicode {a b c d : Char} {i j k l : Nat} (first : (a, i) ∈ hexDigits)
      (second : (b, j) ∈ hexDigits) (third : (c, k) ∈ hexDigits) (fourth : (d, l) ∈ hexDigits) :
      PieceText ['\\', 'u', a, b, c, d] (.unit (4096 * i + 256 * j + 16 * k + l))

inductive PiecesText : List Char → List Fragment → Prop where
  | nil : PiecesText [] []
  | cons {text more : List Char} {piece : Fragment} {pieces : List Fragment}
      (first : PieceText text piece) (tail : PiecesText more pieces) :
      PiecesText (text ++ more) (piece :: pieces)

/-- A high surrogate directly before a low one makes a character with it; any other surrogate
stands for none. -/
def meaning : List Fragment → List Char
  | [] => []
  | .char c :: rest => c :: meaning rest
  | .unit high :: .unit low :: rest =>
    if Utf16.isHighSurrogate high && Utf16.isLowSurrogate low then
      Utf16.pair high low :: meaning rest
    else
      Utf16.single high :: meaning (.unit low :: rest)
  | .unit lone :: rest => Utf16.single lone :: meaning rest

inductive StringText : List Char → String → Prop where
  | mk {body : List Char} {pieces : List Fragment} (pieces_ok : PiecesText body pieces) :
      StringText ('"' :: (body ++ ['"'])) (String.ofList (meaning pieces))

mutual

/-- A value without the white space around it. -/
inductive ValueText : List Char → Json → Prop where
  | null : ValueText "null".toList .null
  | true : ValueText "true".toList (.bool true)
  | false : ValueText "false".toList (.bool false)
  | number {text : List Char} {numeral : Numeral} (number_ok : NumberText text numeral) :
      ValueText text (.number numeral.toBinary)
  | string {text : List Char} {value : String} (string_ok : StringText text value) :
      ValueText text (.string value)
  | emptyArray {space : List Char} (space_ok : IsWhitespace space) :
      ValueText ('[' :: (space ++ [']'])) (.array [])
  | array {space text : List Char} {items : List Json} (space_ok : IsWhitespace space)
      (items_ok : ItemsText text items) : ValueText ('[' :: (space ++ text ++ [']'])) (.array items)
  | emptyObject {space : List Char} (space_ok : IsWhitespace space) :
      ValueText ('{' :: (space ++ ['}'])) (.object [])
  | object {space text : List Char} {pairs : List (String × Json)} {members : Members Json}
      (space_ok : IsWhitespace space) (pairs_ok : PairsText text pairs)
      (merged : Members.Merges pairs members) :
      ValueText ('{' :: (space ++ text ++ ['}'])) (.object members)

/-- A value and the white space after it. -/
inductive ItemText : List Char → Json → Prop where
  | mk {text space : List Char} {value : Json} (value_ok : ValueText text value)
      (space_ok : IsWhitespace space) : ItemText (text ++ space) value

inductive ItemsText : List Char → List Json → Prop where
  | last {text : List Char} {value : Json} (item_ok : ItemText text value) :
      ItemsText text [value]
  | more {text space rest : List Char} {value : Json} {values : List Json}
      (item_ok : ItemText text value) (space_ok : IsWhitespace space)
      (rest_ok : ItemsText rest values) :
      ItemsText (text ++ ',' :: (space ++ rest)) (value :: values)

inductive PairText : List Char → String × Json → Prop where
  | mk {keyText before after text : List Char} {key : String} {value : Json}
      (key_ok : StringText keyText key) (before_ok : IsWhitespace before)
      (after_ok : IsWhitespace after) (item_ok : ItemText text value) :
      PairText (keyText ++ before ++ ':' :: (after ++ text)) (key, value)

inductive PairsText : List Char → List (String × Json) → Prop where
  | last {text : List Char} {pair : String × Json} (pair_ok : PairText text pair) :
      PairsText text [pair]
  | more {text space rest : List Char} {pair : String × Json} {pairs : List (String × Json)}
      (pair_ok : PairText text pair) (space_ok : IsWhitespace space)
      (rest_ok : PairsText rest pairs) :
      PairsText (text ++ ',' :: (space ++ rest)) (pair :: pairs)

end

inductive DocumentText : List Char → Json → Prop where
  | mk {before text after : List Char} {value : Json} (before_ok : IsWhitespace before)
      (value_ok : ValueText text value) (after_ok : IsWhitespace after) :
      DocumentText (before ++ text ++ after) value

end Grammar

end CombinatorJson
