import CombinatorJson.Numeric.Decimal

set_option autoImplicit false

namespace CombinatorJson

structure Numeral where
  negative : Bool
  decimal : Decimal
deriving DecidableEq

namespace Numeral

def splitDigits (text : List Char) : List Char × List Char :=
  (text.takeWhile Char.isDigit, text.dropWhile Char.isDigit)

def splitFraction? (text : List Char) : Option (List Char × List Char) :=
  match text with
  | '.' :: rest =>
    let (digits, rest) := splitDigits rest
    if digits.isEmpty then none else some (digits, rest)
  | _ => some ([], text)

def splitSign : List Char → Bool × List Char
  | '-' :: rest => (true, rest)
  | '+' :: rest => (false, rest)
  | text => (false, text)

def exponent? : List Char → Option Int
  | [] => some 0
  | mark :: rest =>
    let (negative, rest) := splitSign rest
    let (digits, rest) := splitDigits rest
    if (mark = 'e' ∨ mark = 'E') ∧ ¬ digits.isEmpty ∧ rest.isEmpty then
      let magnitude := Nat.ofDigitChars 10 digits 0
      some (if negative then -magnitude else magnitude)
    else
      none

def read? (text : List Char) : Option Numeral := do
  let (negative, body) := match text with
    | '-' :: rest => (true, rest)
    | _ => (false, text)
  let (whole, rest) := splitDigits body
  if whole.isEmpty then none
  let (fraction, rest) ← splitFraction? rest
  let exponent ← exponent? rest
  return {
    negative
    decimal := ⟨Nat.ofDigitChars 10 (whole ++ fraction) 0, exponent - fraction.length⟩ }

def toBinary {format : Format} (numeral : Numeral) : Binary format :=
  .ofDecimal numeral.negative numeral.decimal

end Numeral

end CombinatorJson
