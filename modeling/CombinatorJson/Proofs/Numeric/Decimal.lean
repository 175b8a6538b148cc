import CombinatorJson.Numeric.Shortest
import CombinatorJson.Proofs.Numeric.Rounding

set_option autoImplicit false

namespace CombinatorJson

namespace Decimal

def numerator (decimal : Decimal) : Nat :=
  decimal.digits * 10 ^ decimal.exponent.toNat

def denominator (decimal : Decimal) : Nat :=
  10 ^ (-decimal.exponent).toNat

theorem denominator_pos (decimal : Decimal) : 0 < decimal.denominator :=
  Nat.pow_pos (by decide)

def Same (left right : Decimal) : Prop :=
  left.numerator * right.denominator = right.numerator * left.denominator

end Decimal

namespace Format

variable {format : Format}

theorem nearestRank_zero {denominator : Nat} (positive : 0 < denominator) :
    format.nearestRank 0 denominator = 0 :=
  nearestRank_underflow (by simpa using positive)

theorem rankOfDecimal_clamped (format : Format) (decimal : Decimal) :
    format.rankOfDecimal decimal =
      format.nearestRank
        (Decimal.numerator ⟨decimal.digits, format.clampExponent decimal.digits decimal.exponent⟩)
        (Decimal.denominator
          ⟨decimal.digits, format.clampExponent decimal.digits decimal.exponent⟩) := by
  unfold rankOfDecimal Decimal.numerator Decimal.denominator
  split
  · next power same => simp [same]
  · next power same => simp [same]

theorem nearestRank_of_large (decimal : Decimal) (wide : 2 ≤ format.exponentBits)
    (nonzero : decimal.digits ≠ 0)
    (large : (2 ^ (format.exponentBits - 1) : Nat) ≤ 3 * decimal.exponent) :
    format.nearestRank decimal.numerator decimal.denominator = format.infinityRank := by
  have positive := Int.le_trans (Int.natCast_nonneg _) large
  have whole : (-decimal.exponent).toNat = 0 := by omega
  have power : 2 ^ (format.exponentBits - 1) ≤ 3 * decimal.exponent.toNat := by
    generalize 2 ^ (format.exponentBits - 1) = top at *
    omega
  refine nearestRank_overflow wide decimal.denominator_pos ?_
  rw [Decimal.denominator, whole, Nat.pow_zero, Nat.mul_one]
  -- A power of ten counts for three powers of two.
  calc 2 ^ 2 ^ (format.exponentBits - 1)
    _ ≤ 2 ^ (3 * decimal.exponent.toNat) := Nat.pow_le_pow_right (by decide) power
    _ = 8 ^ decimal.exponent.toNat := Nat.pow_mul 2 3 _
    _ ≤ 10 ^ decimal.exponent.toNat := Nat.pow_le_pow_left (by decide) _
    _ ≤ decimal.digits * 10 ^ decimal.exponent.toNat :=
      Nat.le_mul_of_pos_left _ (Nat.pos_of_ne_zero nonzero)

theorem nearestRank_of_small (decimal : Decimal)
    (small : decimal.exponent ≤ -(Nat.log2 decimal.digits + format.scale + 2 : Nat)) :
    format.nearestRank decimal.numerator decimal.denominator = 0 := by
  have whole : decimal.exponent.toNat = 0 := by omega
  have power : Nat.log2 decimal.digits + format.scale + 2 ≤ (-decimal.exponent).toNat := by omega
  refine nearestRank_underflow ?_
  rw [Decimal.numerator, whole, Nat.pow_zero, Nat.mul_one]
  have short : decimal.digits < 2 ^ (Nat.log2 decimal.digits + 1) := Nat.lt_log2_self
  calc 2 * (decimal.digits * 2 ^ format.scale)
    _ < 2 * (2 ^ (Nat.log2 decimal.digits + 1) * 2 ^ format.scale) :=
      Nat.mul_lt_mul_of_pos_left
        (Nat.mul_lt_mul_of_pos_right short (Nat.two_pow_pos _)) (by decide)
    _ = 2 ^ (Nat.log2 decimal.digits + format.scale + 2) := by
      rw [← Nat.pow_add, ← Nat.pow_succ']
      congr 1
      omega
    _ ≤ 10 ^ (Nat.log2 decimal.digits + format.scale + 2) := Nat.pow_le_pow_left (by decide) _
    _ ≤ decimal.denominator := Nat.pow_le_pow_right (by decide) power

section

variable {digits : Nat} {exponent : Int}

theorem clampExponent_of_small
    (small : exponent ≤ -(Nat.log2 digits + format.scale + 2 : Nat)) :
    format.clampExponent digits exponent = -(Nat.log2 digits + format.scale + 2 : Nat) := by
  rw [clampExponent, Nat.pow_eq]
  generalize 2 ^ (format.exponentBits - 1) = top
  omega

theorem clampExponent_of_large (large : (2 ^ (format.exponentBits - 1) : Nat) ≤ exponent) :
    format.clampExponent digits exponent = (2 ^ (format.exponentBits - 1) : Nat) := by
  rw [clampExponent, Nat.pow_eq]
  generalize 2 ^ (format.exponentBits - 1) = top at *
  omega

theorem clampExponent_of_between
    (small : ¬ exponent ≤ -(Nat.log2 digits + format.scale + 2 : Nat))
    (large : ¬ (2 ^ (format.exponentBits - 1) : Nat) ≤ exponent) :
    format.clampExponent digits exponent = exponent := by
  rw [clampExponent, Nat.pow_eq]
  omega

end

theorem rankOfDecimal_eq (wide : 2 ≤ format.exponentBits) (decimal : Decimal) :
    format.rankOfDecimal decimal =
      format.nearestRank decimal.numerator decimal.denominator := by
  -- The clamped exponent gives the same answer: zero or infinity beyond the bounds.
  rw [rankOfDecimal_clamped]
  obtain ⟨digits, exponent⟩ := decimal
  by_cases small : exponent ≤ -(Nat.log2 digits + format.scale + 2 : Nat)
  · rw [nearestRank_of_small ⟨digits, exponent⟩ small, clampExponent_of_small small]
    exact nearestRank_of_small ⟨digits, _⟩ (Int.le_refl _)
  by_cases large : (2 ^ (format.exponentBits - 1) : Nat) ≤ exponent
  · by_cases zero : digits = 0
    · simp [zero, Decimal.numerator, nearestRank_zero (Decimal.denominator_pos _)]
    · have thrice : (2 ^ (format.exponentBits - 1) : Nat) ≤
          3 * ((2 ^ (format.exponentBits - 1) : Nat) : Int) := by
        generalize 2 ^ (format.exponentBits - 1) = top
        omega
      have thrice' := Int.le_trans thrice (Int.mul_le_mul_of_nonneg_left large (by decide))
      rw [nearestRank_of_large ⟨digits, exponent⟩ wide zero thrice', clampExponent_of_large large]
      exact nearestRank_of_large ⟨digits, _⟩ wide zero thrice
  · rw [clampExponent_of_between small large]

theorem rankOfDecimal_congr (wide : 2 ≤ format.exponentBits) {left right : Decimal}
    (same : left.Same right) : format.rankOfDecimal left = format.rankOfDecimal right := by
  rw [rankOfDecimal_eq wide, rankOfDecimal_eq wide]
  exact nearestRank_congr left.denominator_pos right.denominator_pos same

def ReadsBack (format : Format) (rank : Nat) (decimal : Decimal) : Prop :=
  format.rankOfDecimal decimal = rank

theorem neighbour?_readsBack {rank digits : Nat} {exponent : Int}
    (found : format.neighbour? rank exponent = some digits) :
    format.ReadsBack rank ⟨digits, exponent⟩ := by
  simp only [neighbour?] at found
  split at found
  · next reads =>
    cases found
    simp only [Bool.and_eq_true, decide_eq_true_eq] at reads
    exact reads.1
  · split at found
    · next reads =>
      cases found
      rw [ReadsBack]
      exact of_decide_eq_true reads
    · contradiction

theorem exactDecimal_readsBack (wide : 2 ≤ format.exponentBits) {rank : Nat}
    (bounded : rank ≤ format.infinityRank) :
    format.ReadsBack rank (format.exactDecimal rank) := by
  rw [ReadsBack, rankOfDecimal_eq wide]
  refine nearestRank_exact bounded (Decimal.denominator_pos _) ?_
  simp only [Decimal.numerator, Decimal.denominator, exactDecimal, Nat.pow_eq,
    Int.toNat_neg_natCast, Int.neg_neg, Int.toNat_natCast, Nat.pow_zero, Nat.mul_one, Nat.mul_assoc,
    ← Nat.mul_pow]

theorem decimalFrom_readsBack (wide : 2 ≤ format.exponentBits) {rank : Nat}
    (bounded : rank ≤ format.infinityRank) (grids : Nat) (exponent : Int) :
    format.ReadsBack rank (format.decimalFrom rank grids exponent) := by
  induction grids generalizing exponent with
  | zero => exact exactDecimal_readsBack wide bounded
  | succ grids ih =>
    rw [decimalFrom]
    split
    · next digits found => exact neighbour?_readsBack found
    · exact ih (exponent - 1)

theorem shortestDecimal_readsBack (wide : 2 ≤ format.exponentBits) {rank : Nat}
    (bounded : rank ≤ format.infinityRank) :
    format.ReadsBack rank (format.shortestDecimal rank) := by
  unfold shortestDecimal
  split
  · next zero =>
    rw [ReadsBack, rankOfDecimal_eq wide, zero]
    exact nearestRank_zero (Decimal.denominator_pos _)
  · exact decimalFrom_readsBack wide bounded _ _

end Format

namespace Binary

variable {format : Format}

theorem ofDecimal_eq_infinity (wide : 2 ≤ format.exponentBits) (negative : Bool) {decimal : Decimal}
    (nonzero : decimal.digits ≠ 0)
    (large : (2 ^ (format.exponentBits - 1) : Nat) ≤ 3 * decimal.exponent) :
    (ofDecimal negative decimal : Binary format) = infinity negative := by
  have rank := (Format.rankOfDecimal_eq wide decimal).trans
    (Format.nearestRank_of_large decimal wide nonzero large)
  exact congrArg (Binary.signed negative) (Fin.ext rank)

theorem ofDecimal_shortestDecimal (wide : 2 ≤ format.exponentBits) (negative : Bool)
    (rank : Fin (format.infinityRank + 1)) {decimal : Decimal}
    (same : decimal.Same (format.shortestDecimal rank)) :
    ofDecimal negative decimal = Binary.signed negative rank := by
  have bounded := Nat.le_of_lt_succ rank.isLt
  have readsBack := Format.shortestDecimal_readsBack wide bounded
  have rank_eq := (Format.rankOfDecimal_congr wide same).trans readsBack
  exact congrArg (Binary.signed negative) (Fin.ext rank_eq)

end Binary

theorem toDigits_head {value : Nat} (positive : 0 < value) :
    ∃ c rest, Nat.toDigits 10 value = c :: rest ∧ c ≠ '0' := by
  induction value using Nat.strongRecOn with
  | ind value ih =>
    by_cases small : value < 10
    · have digits : ∀ digit < 10, 0 < digit → Nat.digitChar digit ≠ '0' := by decide
      exact ⟨_, [], Nat.toDigits_of_lt_base small, digits value small positive⟩
    · obtain ⟨c, rest, begun, nonzero⟩ := ih (value / 10) (by omega) (by omega)
      have split := Nat.toDigits_of_base_le (by decide : 1 < 10) (Nat.le_of_not_lt small)
      rw [begun] at split
      exact ⟨c, _, split, nonzero⟩

def Decimal.Normal (decimal : Decimal) : Prop :=
  decimal.digits = 0 → decimal.exponent = 0

theorem Format.shortestDecimal_normal {format : Format} (wide : 2 ≤ format.exponentBits) {rank : Nat}
    (bounded : rank ≤ format.infinityRank) : (format.shortestDecimal rank).Normal := by
  intro zero
  by_cases least : rank = 0
  · simp [shortestDecimal, least]
  · -- A decimal without digits would read back as zero.
    have readsBack := shortestDecimal_readsBack wide bounded
    rw [ReadsBack, rankOfDecimal_eq wide, Decimal.numerator, zero, Nat.zero_mul,
      nearestRank_zero (Decimal.denominator_pos _)] at readsBack
    exact absurd readsBack.symm least

theorem Decimal.text_of_zero_head {decimal : Decimal} (normal : decimal.Normal)
    (zero : decimal.text.head? = some '0') :
    decimal.text = ['0'] ∨ ∃ rest, decimal.text = '0' :: '.' :: rest := by
  obtain ⟨digits, exponent⟩ := decimal
  by_cases nothing : digits = 0
  · obtain rfl : exponent = 0 := normal nothing
    subst nothing
    exact .inl rfl
  obtain ⟨c, rest, shown, nonzero⟩ := toDigits_head (Nat.pos_of_ne_zero nothing)
  cases exponent with
  | ofNat power => exact absurd zero (by simp [Decimal.text, shown, nonzero])
  | negSucc power =>
    by_cases few : power + 1 < (Nat.toDigits 10 digits).length
    · obtain ⟨front, places⟩ : ∃ front, (Nat.toDigits 10 digits).length - (power + 1) = front + 1 :=
        Nat.exists_eq_add_one.mpr (by omega)
      simp only [Decimal.text, few, if_true, places] at zero
      simp [shown, nonzero] at zero
    · exact .inr ⟨_, by simp only [Decimal.text, few, if_false]; rfl⟩

end CombinatorJson
