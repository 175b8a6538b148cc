import CombinatorJson.Numeric.Decimal

set_option autoImplicit false

namespace CombinatorJson

namespace Format

/-- The magnitude of a rank in steps of `10 ^ exponent`, as numerator and denominator. -/
def steps (format : Format) (rank : Nat) : Int → Nat × Nat
  | .ofNat power => (format.units rank, Nat.pow 2 format.scale * Nat.pow 10 power)
  | .negSucc power => (format.units rank * Nat.pow 10 (power + 1), Nat.pow 2 format.scale)

/-- The neighbour of a magnitude among the multiples of `10 ^ exponent` that reads back to it. Of
two such neighbours it is the nearer one, and of two equally near ones the larger. -/
def neighbour? (format : Format) (rank : Nat) (exponent : Int) : Option Nat :=
  let (numerator, denominator) := format.steps rank exponent
  let below := numerator / denominator
  let readsBack (digits : Nat) : Bool := format.rankOfDecimal ⟨digits, exponent⟩ = rank
  let belowIsNearer : Bool := 2 * numerator < (2 * below + 1) * denominator
  if readsBack (below + 1) && !(belowIsNearer && readsBack below) then
    some (below + 1)
  else if readsBack below then
    some below
  else
    none

def exactDecimal (format : Format) (rank : Nat) : Decimal :=
  ⟨format.units rank * Nat.pow 5 format.scale, -format.scale⟩

def decimalFrom (format : Format) (rank : Nat) : Nat → Int → Decimal
  | 0, _ => format.exactDecimal rank
  | grids + 1, exponent =>
    match format.neighbour? rank exponent with
    | some digits => ⟨digits, exponent⟩
    | none => format.decimalFrom rank grids (exponent - 1)

/-- The exponent of a power of ten above a magnitude, and at most one too large; `30103 / 100000`
is just above the decimal logarithm of two. -/
def decimalCeiling (format : Format) (rank : Nat) : Int :=
  (Nat.log2 (format.units rank) + 1 - format.scale : Int) * 30103 / 100000 + 1

/-- A decimal of a finite magnitude with as few digits as still read back to it. The grids go on
past the digits that the significand can tell apart. -/
def shortestDecimal (format : Format) (rank : Nat) : Decimal :=
  if rank = 0 then
    ⟨0, 0⟩
  else
    format.decimalFrom rank (format.fractionBits * 30103 / 100000 + 5)
      (format.decimalCeiling rank)

end Format

namespace Binary

variable {format : Format}

def text : Binary format → List Char
  | .nan => "NaN".toList
  | .signed negative rank =>
    let magnitude :=
      if rank.val = format.infinityRank then "inf".toList else (format.shortestDecimal rank).text
    if negative then '-' :: magnitude else magnitude

end Binary

end CombinatorJson
