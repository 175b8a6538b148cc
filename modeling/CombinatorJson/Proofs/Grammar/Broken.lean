import CombinatorJson.Proofs.Grammar.Derivation

set_option autoImplicit false

namespace CombinatorJson

namespace Grammar

inductive BrokenNumber : List Char → Prop where
  | sign : BrokenNumber ['-']
  | point {sign whole : List Char} {negative : Bool} (sign_ok : SignText sign negative)
      (whole_ok : Digits whole) : BrokenNumber (sign ++ whole ++ ['.'])
  | exponent {sign whole fraction fractionDigits exponentSign : List Char} {negative down : Bool}
      {mark : Char} (sign_ok : SignText sign negative) (whole_ok : Digits whole)
      (fraction_ok : FractionText fraction fractionDigits) (mark_ok : mark ∈ ['e', 'E'])
      (exponentSign_ok : ExponentSignText exponentSign down) :
      BrokenNumber (sign ++ whole ++ fraction ++ mark :: exponentSign)

inductive BrokenString : List Char → Prop where
  | body {body : List Char} {pieces : List Fragment} (pieces_ok : PiecesText body pieces) :
      BrokenString ('"' :: body)
  | escape {body : List Char} {pieces : List Fragment} (pieces_ok : PiecesText body pieces) :
      BrokenString ('"' :: (body ++ ['\\']))
  | unicode {body digits : List Char} {pieces : List Fragment} (pieces_ok : PiecesText body pieces)
      (digits_ok : ∀ c ∈ digits, ∃ value, (c, value) ∈ hexDigits) (few : digits.length < 4) :
      BrokenString ('"' :: (body ++ '\\' :: 'u' :: digits))

inductive BrokenKeyword : List Char → Prop where
  | mk {keyword : String} {matched more : List Char} {c : Char}
      (known : keyword ∈ ["null", "true", "false"]) (split : keyword.toList = matched ++ c :: more) :
      BrokenKeyword matched

mutual

/-- The empty text stands for a place where no value begins. -/
inductive BrokenValue : List Char → List String → Prop where
  | start : BrokenValue [] []
  | keyword {text : List Char} (keyword_ok : BrokenKeyword text) : BrokenValue text []
  | number {text : List Char} (number_ok : BrokenNumber text) : BrokenValue text []
  | string {text : List Char} (string_ok : BrokenString text) : BrokenValue text []
  | array {space text : List Char} {contexts : List String} (space_ok : IsWhitespace space)
      (items_ok : BrokenItems text contexts) : BrokenValue ('[' :: (space ++ text)) contexts
  | object {space text : List Char} {contexts : List String} (space_ok : IsWhitespace space)
      (pairs_ok : BrokenPairs text contexts) : BrokenValue ('{' :: (space ++ text)) contexts

inductive BrokenItems : List Char → List String → Prop where
  | none : BrokenItems [] []
  | first {text : List Char} {contexts : List String} (value_ok : BrokenValue text contexts)
      (begun : text ≠ []) : BrokenItems text (arrayElement :: contexts)
  | ended {text : List Char} {items : List Json} (items_ok : ItemsText text items) :
      BrokenItems text []
  | next {text space rest : List Char} {items : List Json} {contexts : List String}
      (items_ok : ItemsText text items) (space_ok : IsWhitespace space)
      (value_ok : BrokenValue rest contexts) :
      BrokenItems (text ++ ',' :: (space ++ rest)) (arrayElement :: contexts)

/-- Nothing of the key, or a part of it; the key without its colon; or the key and a part of the
value. -/
inductive BrokenPair : List Char → List String → Prop where
  | start : BrokenPair [] [objectKey]
  | key {text : List Char} (key_ok : BrokenString text) : BrokenPair text [objectKey]
  | colon {text before : List Char} {key : String} (key_ok : StringText text key)
      (before_ok : IsWhitespace before) : BrokenPair (text ++ before) []
  | value {keyText before after text : List Char} {key : String} {contexts : List String}
      (key_ok : StringText keyText key) (before_ok : IsWhitespace before)
      (after_ok : IsWhitespace after) (value_ok : BrokenValue text contexts) :
      BrokenPair (keyText ++ before ++ ':' :: (after ++ text)) (objectValue :: contexts)

inductive BrokenPairs : List Char → List String → Prop where
  | none : BrokenPairs [] []
  | first {text : List Char} {contexts : List String} (pair_ok : BrokenPair text contexts)
      (begun : text ≠ []) : BrokenPairs text contexts
  | ended {text : List Char} {pairs : List (String × Json)} (pairs_ok : PairsText text pairs) :
      BrokenPairs text []
  | next {text space rest : List Char} {pairs : List (String × Json)} {contexts : List String}
      (pairs_ok : PairsText text pairs) (space_ok : IsWhitespace space)
      (pair_ok : BrokenPair rest contexts) :
      BrokenPairs (text ++ ',' :: (space ++ rest)) contexts

end

inductive BrokenDocument : List Char → List String → String → Prop where
  | value {before text : List Char} {contexts : List String} (before_ok : IsWhitespace before)
      (value_ok : BrokenValue text contexts) : BrokenDocument (before ++ text) contexts "satisfy"
  | trailing {text : List Char} {value : Json} (document_ok : DocumentText text value) :
      BrokenDocument text [] "endOfInput"

end Grammar

end CombinatorJson
