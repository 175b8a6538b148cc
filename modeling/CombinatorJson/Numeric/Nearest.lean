import CombinatorJson.Numeric.Binary

set_option autoImplicit false

namespace CombinatorJson

def roundHalfEven (numerator denominator : Nat) : Nat :=
  let below := numerator / denominator
  let excess := 2 * (numerator % denominator)
  if excess < denominator ∨ (excess = denominator ∧ below % 2 = 0) then below else below + 1

namespace Format

def nearestRank (format : Format) (numerator denominator : Nat) : Nat :=
  let scaled := numerator * Nat.pow 2 format.scale
  let dropped := Nat.log2 (scaled / denominator) - format.fractionBits
  min format.infinityRank
    (dropped * format.binade + roundHalfEven scaled (denominator * Nat.pow 2 dropped))

theorem nearestRank_lt (format : Format) (numerator denominator : Nat) :
    format.nearestRank numerator denominator < format.infinityRank + 1 :=
  Nat.lt_succ_of_le (Nat.min_le_left _ _)

end Format

namespace Binary

variable {format : Format}

def nearest (negative : Bool) (numerator denominator : Nat) : Binary format :=
  .signed negative ⟨format.nearestRank numerator denominator, format.nearestRank_lt _ _⟩

def ofInt (value : Int) : Binary format :=
  nearest (value < 0) value.natAbs 1

def convert {source target : Format} : Binary source → Binary target
  | .nan => .nan
  | .signed negative rank =>
    if rank.val = source.infinityRank then
      infinity negative
    else
      nearest negative (source.units rank) (Nat.pow 2 source.scale)

end Binary

namespace Single

/-- The greatest finite magnitude, counted in units of the double format. -/
def greatestUnits : Nat :=
  Format.binary32.units (Format.binary32.infinityRank - 1) *
    Nat.pow 2 (Format.binary64.scale - Format.binary32.scale)

def ofDouble? (value : Double) : Option Single :=
  match value with
  | .nan => some .nan
  | .signed _ rank =>
    if value.isFinite && greatestUnits < Format.binary64.units rank then
      none
    else
      some value.convert

end Single

end CombinatorJson
