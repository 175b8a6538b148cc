import CombinatorJson.Numeric.Nearest

set_option autoImplicit false

namespace CombinatorJson

/-- The value `digits * 10 ^ exponent`. -/
structure Decimal where
  digits : Nat
  exponent : Int
deriving DecidableEq

namespace Decimal

def text (decimal : Decimal) : List Char :=
  let shown := Nat.toDigits 10 decimal.digits
  match decimal.exponent with
  | .ofNat power => shown ++ List.replicate power '0'
  | .negSucc power =>
    let places := power + 1
    if places < shown.length then
      shown.take (shown.length - places) ++ '.' :: shown.drop (shown.length - places)
    else
      '0' :: '.' :: List.replicate (places - shown.length) '0' ++ shown

end Decimal

namespace Format

/-- Beyond these exponents every decimal with the given digits is infinite, or rounds to zero. -/
def clampExponent (format : Format) (digits : Nat) (exponent : Int) : Int :=
  max (-(Nat.log2 digits + format.scale + 2 : Nat))
    (min (Nat.pow 2 (format.exponentBits - 1)) exponent)

def rankOfDecimal (format : Format) (decimal : Decimal) : Nat :=
  match format.clampExponent decimal.digits decimal.exponent with
  | .ofNat power => format.nearestRank (decimal.digits * Nat.pow 10 power) 1
  | .negSucc power => format.nearestRank decimal.digits (Nat.pow 10 (power + 1))

theorem rankOfDecimal_lt (format : Format) (decimal : Decimal) :
    format.rankOfDecimal decimal < format.infinityRank + 1 := by
  unfold rankOfDecimal
  split <;> exact format.nearestRank_lt _ _

end Format

namespace Binary

variable {format : Format}

def ofDecimal (negative : Bool) (decimal : Decimal) : Binary format :=
  .signed negative ⟨format.rankOfDecimal decimal, format.rankOfDecimal_lt decimal⟩

end Binary

end CombinatorJson
