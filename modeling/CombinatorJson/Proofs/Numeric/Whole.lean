import CombinatorJson.Proofs.Numeric.Nearest

set_option autoImplicit false

namespace CombinatorJson

namespace Format

variable {format : Format} {rank : Nat}

theorem magnitude_eq_natCast_iff {whole : Nat} :
    format.magnitude rank = whole ↔ format.units rank = whole * 2 ^ format.scale := by
  rw [magnitude, div_eq_iff format.scale_pos.ne']
  norm_cast

theorem magnitude_nonneg (format : Format) (rank : Nat) : 0 ≤ format.magnitude rank :=
  div_nonneg (Nat.cast_nonneg _) format.scale_pos.le

theorem NearestBelow.magnitude_le {limit other : Nat} {value : ℚ}
    (nearest : format.NearestBelow limit value rank) (bounded : other < limit)
    (below : format.magnitude other ≤ value) : format.magnitude other ≤ format.magnitude rank := by
  have closer := nearest.nearest other bounded
  rw [abs_of_nonneg (sub_nonneg.mpr below)] at closer
  linarith [le_abs_self (value - format.magnitude rank)]

end Format

namespace Binary

variable {format : Format} {negative : Bool} {rank : Fin (format.infinityRank + 1)}

def value? : Binary format → Option ℚ
  | .nan => none
  | .signed negative rank =>
    if rank.val = format.infinityRank then
      none
    else
      some (if negative then -format.magnitude rank else format.magnitude rank)

theorem integer?_signed_iff {value : Int} :
    (signed negative rank).integer? = some value ↔
      rank.val ≠ format.infinityRank ∧
        ∃ whole : Nat, format.magnitude rank = whole ∧
          value = if negative then -(whole : Int) else whole := by
  simp only [integer?, Nat.pow_eq, Format.magnitude_eq_natCast_iff]
  by_cases infinite : rank.val = format.infinityRank
  · simp [infinite]
  by_cases divides : format.units rank % 2 ^ format.scale = 0
  · have exact := (Nat.div_mul_cancel (Nat.dvd_of_mod_eq_zero divides)).symm
    have only (whole : Nat) : format.units rank = whole * 2 ^ format.scale ↔
        whole = format.units rank / 2 ^ format.scale := by
      constructor
      · intro same
        rw [same, Nat.mul_div_cancel _ (Nat.two_pow_pos _)]
      · rintro rfl
        exact exact
    simp [infinite, divides, only, eq_comm]
  · have never (whole : Nat) : format.units rank ≠ whole * 2 ^ format.scale := by
      intro same
      exact divides (same ▸ Nat.mul_mod_left _ _)
    simp [infinite, divides, never]

theorem signed_eq_intCast_iff {size : ℚ} (nonneg : 0 ≤ size) {value : Int} :
    (if negative then -size else size) = value ↔
      ∃ whole : Nat, size = whole ∧ value = if negative then -(whole : Int) else whole := by
  constructor
  · intro same
    cases negative with
    | false =>
      have positive : size = value := same
      have sign : 0 ≤ value := by exact_mod_cast positive ▸ nonneg
      obtain ⟨whole, rfl⟩ := Int.eq_ofNat_of_zero_le sign
      exact ⟨whole, by exact_mod_cast positive, rfl⟩
    | true =>
      have opposite : -size = value := same
      have sign : value ≤ 0 := by exact_mod_cast opposite ▸ neg_nonpos.mpr nonneg
      obtain ⟨whole, rfl⟩ := Int.exists_eq_neg_ofNat sign
      exact ⟨whole, by simpa using opposite, rfl⟩
  · rintro ⟨whole, rfl, rfl⟩
    cases negative <;> simp

theorem integer?_eq_some_iff {number : Binary format} {value : Int} :
    number.integer? = some value ↔ number.value? = some (value : ℚ) := by
  cases number with
  | nan => simp [integer?, value?]
  | signed negative rank =>
    rw [integer?_signed_iff, value?, ← signed_eq_intCast_iff (format.magnitude_nonneg rank)]
    by_cases infinite : rank.val = format.infinityRank <;> simp [infinite]

theorem value?_ofInt {number : Binary format} {value : Int}
    (exact : number.value? = some (value : ℚ)) :
    (ofInt value : Binary format).value? = some (value : ℚ) := by
  rw [← integer?_eq_some_iff] at exact ⊢
  cases number with
  | nan => contradiction
  | signed negative rank =>
    obtain ⟨finite, whole, magnitude, same⟩ := integer?_signed_iff.mp exact
    have size : value.natAbs = whole := by cases negative <;> simp [same]
    have units := Format.magnitude_eq_natCast_iff.mp magnitude
    have rounded : format.nearestRank value.natAbs 1 = rank := by
      apply Format.nearestRank_exact (Nat.le_of_lt_succ rank.isLt) Nat.one_pos
      rw [size, units, Nat.mul_one]
    rw [ofInt, nearest, integer?_signed_iff]
    refine ⟨fun infinite => finite (rounded.symm.trans infinite), whole, ?_, ?_⟩
    · rw [← magnitude, ← rounded]
    · split <;> grind

theorem value?_of_moderate {value : Int} (moderate : value.natAbs ≤ 2 ^ 53) :
    (ofInt value : Double).value? = some (value : ℚ) := by
  rw [← integer?_eq_some_iff]
  rcases Nat.lt_or_eq_of_le moderate with less | last
  · exact Double.roundInt?_of_moderate less
  · rcases Int.natAbs_eq_iff.mp last with rfl | rfl <;> decide +kernel

theorem nearest_eq_ofInt (negative : Bool) {size : Nat} (nonzero : size ≠ 0) :
    (nearest negative size 1 : Binary format) =
      ofInt (if negative then -(size : Int) else size) := by
  have sign : decide ((if negative then -(size : Int) else size) < 0) = negative := by
    cases negative
    · simp
    · simp
      omega
  have same : (if negative then -(size : Int) else size).natAbs = size := by
    cases negative <;> simp
  rw [ofInt, sign, same]

theorem ofDecimal_whole (wide : 2 ≤ format.exponentBits) (negative : Bool) (digits : Nat) :
    (ofDecimal negative ⟨digits, 0⟩ : Binary format) = nearest negative digits 1 := by
  have rank := Format.rankOfDecimal_eq wide ⟨digits, 0⟩
  simp only [Decimal.numerator, Decimal.denominator, Int.toNat_zero, Int.neg_zero, Nat.pow_zero,
    Nat.mul_one] at rank
  exact congrArg (signed negative) (Fin.ext rank)

theorem magnitude_of_ofInt {value rounded : Int}
    (read : (ofInt value : Binary format).integer? = some rounded) :
    format.magnitude (format.nearestRank value.natAbs 1) = rounded.natAbs ∧
      (value < 0 → rounded ≤ 0) ∧ (0 ≤ value → 0 ≤ rounded) := by
  obtain ⟨-, whole, magnitude, same⟩ := integer?_signed_iff.mp read
  have size : rounded.natAbs = whole := by grind
  rw [size]
  exact ⟨magnitude, by grind, by grind⟩

theorem natAbs_le_of_ofInt (fine : 1 ≤ format.fractionBits) {value bound rounded : Int}
    (exact : (ofInt bound : Binary format).integer? = some bound)
    (below : bound.natAbs ≤ value.natAbs)
    (read : (ofInt value : Binary format).integer? = some rounded) :
    bound.natAbs ≤ rounded.natAbs := by
  obtain ⟨limit, -⟩ := magnitude_of_ofInt exact
  obtain ⟨magnitude, -⟩ := magnitude_of_ofInt read
  have nearest := format.nearestRank_nearest value.natAbs fine Nat.one_pos
  have bounded := format.nearestRank_lt bound.natAbs 1
  have below' : (bound.natAbs : ℚ) ≤ value.natAbs / (1 : Nat) := by
    rw [Nat.cast_one, div_one]
    exact_mod_cast below
  rw [← limit] at below'
  have further := nearest.magnitude_le bounded below'
  rw [limit, magnitude] at further
  exact_mod_cast further

/-- The whole part, toward zero. A NaN counts as zero, and infinity as large as any type. -/
def truncated : Binary format → Int
  | .nan => 0
  | .signed negative rank =>
    let whole : Int := (format.units rank / 2 ^ format.scale : Nat)
    if negative then -whole else whole

theorem truncated_of_integer? {number : Binary format} {value : Int}
    (read : number.integer? = some value) : number.truncated = value := by
  cases number with
  | nan => contradiction
  | signed negative rank =>
    obtain ⟨-, whole, magnitude, rfl⟩ := integer?_signed_iff.mp read
    have units := Format.magnitude_eq_natCast_iff.mp magnitude
    rw [truncated, units, Nat.mul_div_cancel _ (Nat.two_pow_pos _)]

end Binary

namespace IntegerType

variable {type : IntegerType}

def saturated (type : IntegerType) (number : Double) : Int :=
  max type.least (min type.greatest number.truncated)

theorem saturated_of_ofDouble? {number : Double} {value : Int}
    (read : type.ofDouble? number = some value) : type.saturated number = value := by
  obtain ⟨whole, lower, upper⟩ := ofDouble?_eq_some_iff.mp read
  rw [saturated, Binary.truncated_of_integer? whole]
  omega

theorem not_contains_of_ofInt {value rounded : Int} (exact : type.isExact = true)
    (outside : ¬type.Contains value)
    (read : (Binary.ofInt value : Double).integer? = some rounded) : ¬type.Contains rounded := by
  -- The first integers beyond the bounds are doubles, so rounding does not cross them.
  obtain ⟨below, above⟩ := bounds_of_exact exact
  have below_read := Double.roundInt?_of_moderate below
  have above_read := Double.roundInt?_of_moderate above
  obtain ⟨-, nonpos, nonneg⟩ := Binary.magnitude_of_ofInt read
  obtain ⟨lower, upper⟩ := type.contains_zero
  have fine : 1 ≤ Format.binary64.fractionBits := by decide
  rw [Contains] at outside ⊢
  rcases Int.lt_or_le value type.least with small | large
  · have further := Binary.natAbs_le_of_ofInt fine below_read (by omega) read
    have sign := nonpos (by omega)
    omega
  · have further := Binary.natAbs_le_of_ofInt fine above_read (by omega) read
    have sign := nonneg (by omega)
    omega

end IntegerType

end CombinatorJson
