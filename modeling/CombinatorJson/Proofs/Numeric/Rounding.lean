import Mathlib.Algebra.Group.Int.Defs
import Mathlib.Algebra.GroupWithZero.Nat
import CombinatorJson.Numeric.Nearest

set_option autoImplicit false

namespace CombinatorJson

theorem roundHalfEven_mul_right {factor : Nat} (positive : 0 < factor)
    (numerator denominator : Nat) :
    roundHalfEven (numerator * factor) (denominator * factor) =
      roundHalfEven numerator denominator := by
  have excess : 2 * (numerator % denominator * factor) =
      2 * (numerator % denominator) * factor := by
    rw [Nat.mul_assoc]
  simp only [roundHalfEven, Nat.mul_div_mul_right _ _ positive, Nat.mul_mod_mul_right, excess,
    Nat.mul_lt_mul_right positive, Nat.mul_left_inj (Nat.ne_of_gt positive)]

theorem roundHalfEven_exact {denominator : Nat} (positive : 0 < denominator) (quotient : Nat) :
    roundHalfEven (quotient * denominator) denominator = quotient := by
  simp [roundHalfEven, Nat.mul_div_cancel _ positive, positive]

theorem div_le_roundHalfEven (numerator denominator : Nat) :
    numerator / denominator ≤ roundHalfEven numerator denominator := by
  simp only [roundHalfEven]
  split <;> simp

namespace Format

variable {format : Format} {rank : Nat}

theorem binade_eq (format : Format) : format.binade = 2 ^ format.fractionBits :=
  rfl

theorem scale_eq (format : Format) :
    format.scale = 2 ^ (format.exponentBits - 1) + format.fractionBits - 2 :=
  rfl

theorem infinityRank_eq (format : Format) :
    format.infinityRank = (2 ^ format.exponentBits - 1) * format.binade :=
  rfl

theorem binade_pos (format : Format) : 0 < format.binade :=
  Nat.two_pow_pos _

theorem nearestRank_mul_right {factor : Nat} (positive : 0 < factor)
    (numerator denominator : Nat) :
    format.nearestRank (numerator * factor) (denominator * factor) =
      format.nearestRank numerator denominator := by
  simp only [nearestRank, Nat.mul_right_comm _ factor, Nat.mul_div_mul_right _ _ positive,
    roundHalfEven_mul_right positive]

theorem nearestRank_congr {numerator denominator numerator' denominator' : Nat}
    (positive : 0 < denominator) (positive' : 0 < denominator')
    (same : numerator * denominator' = numerator' * denominator) :
    format.nearestRank numerator denominator = format.nearestRank numerator' denominator' := by
  rw [← nearestRank_mul_right positive' numerator denominator, same, Nat.mul_comm denominator,
    nearestRank_mul_right positive]

theorem units_of_lt (subnormal : rank < format.binade) : format.units rank = rank :=
  if_pos subnormal

theorem units_of_le (normal : format.binade ≤ rank) :
    format.units rank =
      (format.binade + rank % format.binade) * 2 ^ (rank / format.binade - 1) :=
  if_neg (Nat.not_lt.mpr normal)

/-- The bits of a magnitude that a rank has no room for. -/
def dropped (format : Format) (units : Nat) : Nat :=
  Nat.log2 units - format.fractionBits

theorem log2_le_of_lt {units : Nat} (small : units < format.binade) :
    Nat.log2 units ≤ format.fractionBits := by
  by_cases zero : units = 0
  · simp [zero]
  · exact Nat.le_of_lt ((Nat.log2_lt zero).mpr small)

theorem log2_units (normal : format.binade ≤ rank) :
    Nat.log2 (format.units rank) = format.fractionBits + (rank / format.binade - 1) := by
  have below : rank % format.binade < format.binade := Nat.mod_lt _ (binade_pos format)
  have power := Nat.two_pow_pos (rank / format.binade - 1)
  rw [units_of_le normal]
  have nonzero : (format.binade + rank % format.binade) * 2 ^ (rank / format.binade - 1) ≠ 0 :=
    Nat.ne_of_gt (Nat.mul_pos (Nat.add_pos_left (binade_pos format) _) power)
  rw [Nat.log2_eq_iff nonzero]
  constructor
  · rw [Nat.pow_add]
    exact Nat.mul_le_mul_right _ (Nat.le_add_right _ _)
  · have sum : format.fractionBits + (rank / format.binade - 1) + 1 =
        (format.fractionBits + 1) + (rank / format.binade - 1) := by omega
    rw [sum, Nat.pow_add]
    apply Nat.mul_lt_mul_of_pos_right _ power
    rw [Nat.pow_succ, ← binade_eq]
    omega

theorem dropped_units (normal : format.binade ≤ rank) :
    format.dropped (format.units rank) = rank / format.binade - 1 := by
  rw [dropped, log2_units normal]
  omega

def rankOfUnits (format : Format) (units : Nat) : Nat :=
  format.dropped units * format.binade + units / 2 ^ format.dropped units

theorem rankOfUnits_units (format : Format) (rank : Nat) :
    format.rankOfUnits (format.units rank) = rank := by
  by_cases subnormal : rank < format.binade
  · have none : format.dropped rank = 0 := Nat.sub_eq_zero_of_le (log2_le_of_lt subnormal)
    simp [rankOfUnits, units_of_lt subnormal, none]
  · have normal := Nat.le_of_not_lt subnormal
    have begun : 1 ≤ rank / format.binade := (Nat.one_le_div_iff (binade_pos format)).mpr normal
    rw [rankOfUnits, dropped_units normal, units_of_le normal,
      Nat.mul_div_cancel _ (Nat.two_pow_pos _), ← Nat.add_assoc, Nat.sub_one_mul,
      Nat.sub_add_cancel (Nat.le_mul_of_pos_left _ begun), Nat.div_add_mod']

theorem nearestRank_of_units {numerator denominator units : Nat} (positive : 0 < denominator)
    (exact : numerator * 2 ^ format.scale = units * denominator)
    (divides : 2 ^ format.dropped units ∣ units) :
    format.nearestRank numerator denominator = min format.infinityRank (format.rankOfUnits units) := by
  have power := Nat.two_pow_pos (format.dropped units)
  -- Nothing is lost with the dropped bits, so there is nothing to round.
  have regrouped : units * denominator =
      units / 2 ^ format.dropped units * (denominator * 2 ^ format.dropped units) := by
    rw [Nat.mul_comm denominator, ← Nat.mul_assoc, Nat.div_mul_cancel divides]
  have rounded : roundHalfEven (units * denominator) (denominator * 2 ^ format.dropped units) =
      units / 2 ^ format.dropped units := by
    rw [regrouped]
    exact roundHalfEven_exact (Nat.mul_pos positive power) _
  simp only [nearestRank, Nat.pow_eq, exact, Nat.mul_div_cancel _ positive]
  exact congrArg (fun leading => min format.infinityRank (format.dropped units * format.binade + leading))
    rounded

theorem dropped_divides (format : Format) (rank : Nat) :
    2 ^ format.dropped (format.units rank) ∣ format.units rank := by
  by_cases subnormal : rank < format.binade
  · have none : format.dropped rank = 0 := Nat.sub_eq_zero_of_le (log2_le_of_lt subnormal)
    simp [units_of_lt subnormal, none]
  · have normal := Nat.le_of_not_lt subnormal
    rw [dropped_units normal, units_of_le normal]
    exact Nat.dvd_mul_left _ _

theorem nearestRank_exact {numerator denominator : Nat} (bounded : rank ≤ format.infinityRank)
    (positive : 0 < denominator)
    (exact : numerator * 2 ^ format.scale = format.units rank * denominator) :
    format.nearestRank numerator denominator = rank := by
  rw [nearestRank_of_units positive exact (format.dropped_divides rank), rankOfUnits_units]
  exact Nat.min_eq_right bounded

theorem dropped_le {leading power : Nat} (few : leading < 2 * format.binade) :
    format.dropped (leading * 2 ^ power) ≤ power := by
  by_cases zero : leading = 0
  · simp [zero, dropped]
  · have nonzero : leading * 2 ^ power ≠ 0 :=
      Nat.mul_ne_zero zero (Nat.ne_of_gt (Nat.two_pow_pos power))
    have bound : leading * 2 ^ power < 2 ^ (format.fractionBits + 1 + power) := by
      rw [Nat.pow_add, Nat.pow_succ']
      exact Nat.mul_lt_mul_of_pos_right few (Nat.two_pow_pos power)
    have short := (Nat.log2_lt nonzero).mpr bound
    unfold dropped
    omega

theorem dropped_divides_of_few {leading : Nat} (few : leading < 2 * format.binade) (power : Nat) :
    2 ^ format.dropped (leading * 2 ^ power) ∣ leading * 2 ^ power :=
  Nat.dvd_trans (Nat.pow_dvd_pow 2 (dropped_le few)) (Nat.dvd_mul_left _ _)

theorem leading_bounds {units : Nat} (normal : format.binade ≤ units) :
    format.binade ≤ units / 2 ^ format.dropped units ∧
      units / 2 ^ format.dropped units < 2 * format.binade := by
  have power := Nat.two_pow_pos (format.dropped units)
  have nonzero : units ≠ 0 := Nat.ne_of_gt (Nat.lt_of_lt_of_le format.binade_pos normal)
  have digits : format.fractionBits ≤ Nat.log2 units := (Nat.le_log2 nonzero).mpr normal
  constructor
  · rw [Nat.le_div_iff_mul_le power, binade_eq, ← Nat.pow_add, dropped, Nat.add_sub_cancel' digits]
    exact Nat.log2_self_le nonzero
  · have sum : format.fractionBits + 1 + format.dropped units = Nat.log2 units + 1 := by
      unfold dropped
      omega
    rw [Nat.div_lt_iff_lt_mul power, binade_eq, ← Nat.pow_succ', ← Nat.pow_add, Nat.succ_eq_add_one, sum]
    exact Nat.lt_log2_self

theorem leading_lt (format : Format) (units : Nat) :
    units / 2 ^ format.dropped units < 2 * format.binade := by
  by_cases subnormal : units < format.binade
  · have none : format.dropped units = 0 := Nat.sub_eq_zero_of_le (log2_le_of_lt subnormal)
    rw [none, Nat.pow_zero, Nat.div_one]
    omega
  · exact (leading_bounds (Nat.le_of_not_lt subnormal)).2

theorem units_rankOfUnits {units : Nat} (divides : 2 ^ format.dropped units ∣ units) :
    format.units (format.rankOfUnits units) = units := by
  have restored := Nat.div_mul_cancel divides
  by_cases subnormal : units < format.binade
  · have none : format.dropped units = 0 := Nat.sub_eq_zero_of_le (log2_le_of_lt subnormal)
    simp [rankOfUnits, none, units_of_lt subnormal]
  · obtain ⟨lower, upper⟩ := leading_bounds (Nat.le_of_not_lt subnormal)
    obtain ⟨fraction, split⟩ := Nat.exists_eq_add_of_le lower
    have rest : fraction < format.binade := by omega
    have rank : format.rankOfUnits units =
        format.binade * (format.dropped units + 1) + fraction := by
      rw [rankOfUnits, split, Nat.mul_succ, Nat.mul_comm, Nat.add_assoc]
    have quotient : format.rankOfUnits units / format.binade = format.dropped units + 1 := by
      rw [rank, Nat.mul_add_div format.binade_pos, Nat.div_eq_of_lt rest, Nat.add_zero]
    have remainder : format.rankOfUnits units % format.binade = fraction := by
      rw [rank, Nat.mul_add_mod, Nat.mod_eq_of_lt rest]
    have normal : format.binade ≤ format.rankOfUnits units := by
      rw [rank, Nat.mul_succ]
      omega
    rw [units_of_le normal, quotient, remainder, Nat.add_sub_cancel, ← split, restored]

theorem fractionBits_le_scale (wide : 2 ≤ format.exponentBits) :
    format.fractionBits ≤ format.scale := by
  have two : 2 ≤ 2 ^ (format.exponentBits - 1) := Nat.le_self_pow (by omega) 2
  rw [scale_eq]
  omega

theorem infinityRank_le {units : Nat} (wide : 2 ≤ format.exponentBits)
    (large : 2 ^ (2 ^ (format.exponentBits - 1) + format.scale) ≤ units) :
    format.infinityRank ≤ format.dropped units * format.binade + format.binade := by
  have nonzero : units ≠ 0 := by
    have positive := Nat.two_pow_pos (2 ^ (format.exponentBits - 1) + format.scale)
    omega
  have digits := (Nat.le_log2 nonzero).mpr large
  have double : 2 ^ format.exponentBits = 2 * 2 ^ (format.exponentBits - 1) := by
    rw [← Nat.pow_succ']
    congr 1
    omega
  have two : 2 ≤ 2 ^ (format.exponentBits - 1) := Nat.le_self_pow (by omega) 2
  have enough : 2 ^ format.exponentBits - 1 ≤ format.dropped units + 1 := by
    rw [scale_eq] at digits
    unfold dropped
    omega
  rw [← Nat.succ_mul]
  exact Nat.mul_le_mul_right _ enough

theorem nearestRank_overflow {numerator denominator : Nat} (wide : 2 ≤ format.exponentBits)
    (positive : 0 < denominator)
    (large : 2 ^ 2 ^ (format.exponentBits - 1) * denominator ≤ numerator) :
    format.nearestRank numerator denominator = format.infinityRank := by
  -- The exponents stop short of this power of two, so the rank runs past the largest finite one.
  have quotient : 2 ^ (2 ^ (format.exponentBits - 1) + format.scale) ≤
      numerator * 2 ^ format.scale / denominator := by
    rw [Nat.le_div_iff_mul_le positive, Nat.pow_add, Nat.mul_right_comm]
    exact Nat.mul_le_mul_right _ large
  have normal : format.binade ≤ numerator * 2 ^ format.scale / denominator := by
    have wider := Nat.le_trans (fractionBits_le_scale wide)
      (Nat.le_add_left format.scale (2 ^ (format.exponentBits - 1)))
    exact Nat.le_trans (Nat.pow_le_pow_right (by decide) wider) quotient
  have leading := (leading_bounds normal).1
  rw [Nat.div_div_eq_div_mul] at leading
  have rounded := Nat.le_trans leading (div_le_roundHalfEven _ _)
  exact Nat.min_eq_left (Nat.le_trans (infinityRank_le wide quotient)
    (Nat.add_le_add_left rounded _))

theorem nearestRank_underflow {numerator denominator : Nat}
    (small : 2 * (numerator * 2 ^ format.scale) < denominator) :
    format.nearestRank numerator denominator = 0 := by
  have below : numerator * 2 ^ format.scale < denominator := by omega
  have zero : numerator * 2 ^ format.scale / denominator = 0 := Nat.div_eq_of_lt below
  simp [nearestRank, zero, roundHalfEven, Nat.mod_eq_of_lt below, small]

end Format

end CombinatorJson
