/-!
The magnitudes of a format are listed in increasing order, and a number is a sign with a place in
that list, its rank. A rank is also the bit pattern below the sign bit, so a carry out of the
significand is plain addition and infinity is the rank after the largest finite one.
-/

set_option autoImplicit false

namespace CombinatorJson

structure Format where
  fractionBits : Nat
  exponentBits : Nat
deriving DecidableEq

namespace Format

def scale (format : Format) : Nat :=
  -- The least positive magnitude, the unit, is `2 ^ -scale`.
  Nat.pow 2 (format.exponentBits - 1) + format.fractionBits - 2

/-- The number of ranks that share one exponent. -/
def binade (format : Format) : Nat :=
  Nat.pow 2 format.fractionBits

def infinityRank (format : Format) : Nat :=
  (Nat.pow 2 format.exponentBits - 1) * format.binade

def signBit (format : Format) : Nat :=
  Nat.pow 2 (format.exponentBits + format.fractionBits)

/-- The magnitude of a rank, counted in units. Infinity counts as the power of two that the
exponents stop short of. -/
def units (format : Format) (rank : Nat) : Nat :=
  if rank < format.binade then
    rank
  else
    (format.binade + rank % format.binade) * Nat.pow 2 (rank / format.binade - 1)

def binary64 : Format := ⟨52, 11⟩
def binary32 : Format := ⟨23, 8⟩

end Format

inductive Binary (format : Format) where
  | nan
  | signed (negative : Bool) (rank : Fin (format.infinityRank + 1))
deriving DecidableEq

abbrev Double := Binary Format.binary64
abbrev Single := Binary Format.binary32

namespace Binary

variable {format : Format}

def infinity (negative : Bool) : Binary format :=
  .signed negative (Fin.last _)

def zero (negative : Bool) : Binary format :=
  .signed negative 0

def isFinite : Binary format → Bool
  | .nan => false
  | .signed _ rank => rank.val < format.infinityRank

/-- Comparison as numbers: a NaN equals nothing, and the two zeros are equal. -/
def equal : Binary format → Binary format → Bool
  | .signed left rank, .signed right other => rank == other && (left == right || rank.val == 0)
  | _, _ => false

def ofPattern (format : Format) (pattern : Nat) : Binary format :=
  let rank := pattern % format.signBit
  if bounded : rank ≤ format.infinityRank then
    .signed (pattern / format.signBit % 2 == 1) ⟨rank, Nat.lt_succ_of_le bounded⟩
  else
    .nan

def pattern? : Binary format → Option Nat
  | .nan => none
  | .signed negative rank => some (if negative then format.signBit + rank else rank)

def integer? : Binary format → Option Int
  | .nan => none
  | .signed negative rank =>
    let units := format.units rank
    if rank.val = format.infinityRank ∨ units % Nat.pow 2 format.scale ≠ 0 then
      none
    else
      let magnitude : Int := Int.ofNat (units / Nat.pow 2 format.scale)
      some (if negative then -magnitude else magnitude)

end Binary

end CombinatorJson
