import CombinatorJson.Proofs.Numeric.Whole

set_option autoImplicit false

namespace CombinatorJson

section

variable {lower upper value : ℚ}

theorem middle_le_of_upper_nearer (apart : lower < upper)
    (nearer : |value - upper| ≤ |value - lower|) : lower + upper ≤ 2 * value := by
  by_contra before
  have away : |value - lower| < upper - value := abs_lt.mpr ⟨by linarith, by linarith⟩
  have far := le_abs_self (upper - value)
  rw [abs_sub_comm] at far
  linarith

theorem le_middle_of_lower_nearer (apart : lower < upper)
    (nearer : |value - lower| ≤ |value - upper|) : 2 * value ≤ lower + upper := by
  by_contra after
  have away : |value - upper| < value - lower := abs_lt.mpr ⟨by linarith, by linarith⟩
  have far := le_abs_self (value - lower)
  linarith

end

namespace Format

variable {format : Format} {limit rank other : Nat} {value value' : ℚ}

@[simp] theorem magnitude_zero (format : Format) : format.magnitude 0 = 0 := by
  simp [magnitude, units_of_lt format.binade_pos]

theorem NearestBelow.le_of_le (left : format.NearestBelow limit value rank)
    (right : format.NearestBelow limit value' other) (le : value ≤ value') : rank ≤ other := by
  by_contra crossed
  have apart := format.magnitude_lt_magnitude (Nat.lt_of_not_le crossed)
  have lower := middle_le_of_upper_nearer apart (left.nearest other right.bounded)
  have upper := le_middle_of_lower_nearer apart (right.nearest rank left.bounded)
  -- Both values are in the middle, and a tie is broken in one way only.
  obtain rfl : value = value' := by linarith
  exact crossed (left.unique right).le

theorem NearestBelow.eq_zero (nearest : format.NearestBelow limit 0 rank) : rank = 0 := by
  have closer := nearest.nearest 0 (Nat.zero_lt_of_lt nearest.bounded)
  rw [magnitude_zero, sub_self, abs_zero, zero_sub, abs_neg,
    abs_of_nonneg (format.magnitude_nonneg rank)] at closer
  exact eq_of_magnitude_eq ((le_antisymm closer (format.magnitude_nonneg rank)).trans
    format.magnitude_zero.symm)

theorem largest_lt_overflowBound (wide : 2 ≤ format.exponentBits) :
    format.magnitude (format.infinityRank - 1) < format.overflowBound := by
  have less := Nat.sub_lt (infinityRank_pos wide) Nat.one_pos
  have grows := format.magnitude_lt_magnitude less
  rw [overflowBound]
  linarith

end Format

namespace Binary

variable {format : Format} {negative : Bool} {rank : Fin (format.infinityRank + 1)}

/-- The order of numbers, in which a NaN has no place and the two zeros are equal. -/
inductive AtMost : Binary format → Binary format → Prop where
  | finite {left right : Binary format} {value value' : ℚ} (left_ok : left.value? = some value)
      (right_ok : right.value? = some value') (le : value ≤ value') : AtMost left right
  | infinity {left : Binary format} (real : left ≠ .nan) : AtMost left (.infinity false)
  | negInfinity {right : Binary format} (real : right ≠ .nan) : AtMost (.infinity true) right

def IsEven : Binary format → Prop
  | .nan => False
  | .signed _ rank => rank.val % 2 = 0

/-- Among all finite numbers, whatever their signs, none is nearer; and one that is as near has the
same value, unless the found one is even. -/
def IsNearest (value : ℚ) (number : Binary format) : Prop :=
  ∃ found, number.value? = some found ∧
    ∀ (other : Binary format) (candidate : ℚ), other.value? = some candidate →
      |value - found| ≤ |value - candidate| ∧
        (|value - found| = |value - candidate| → candidate = found ∨ number.IsEven)

theorem value?_signed (finite : rank.val < format.infinityRank) :
    (signed negative rank).value? =
      some (if negative then -format.magnitude rank else format.magnitude rank) :=
  if_neg (Nat.ne_of_lt finite)

theorem value?_infinity (negative : Bool) : (infinity negative : Binary format).value? = none := by
  simp [infinity, value?]

theorem value?_eq_some_iff {number : Binary format} {value : ℚ} :
    number.value? = some value ↔ ∃ negative rank, number = .signed negative rank ∧
      rank.val < format.infinityRank ∧
      value = if negative then -format.magnitude rank else format.magnitude rank := by
  constructor
  · intro known
    cases number with
    | nan => contradiction
    | signed negative rank =>
      rcases infinite_or_finite rank with infinite | finite
      · simp [value?, infinite] at known
      · rw [value?_signed finite, Option.some.injEq] at known
        exact ⟨negative, rank, rfl, finite, known.symm⟩
  · rintro ⟨negative, rank, rfl, finite, rfl⟩
    exact value?_signed finite

theorem distance_of_same_sign (negative : Bool) (size size' : ℚ) :
    |(if negative then -size else size) - (if negative then -size' else size')| = |size - size'| := by
  cases negative with
  | false => rfl
  | true => rw [if_pos rfl, if_pos rfl, neg_sub_neg, abs_sub_comm]

theorem distance_of_other_sign {negative negative' : Bool} {size size' : ℚ} (nonneg : 0 ≤ size)
    (nonneg' : 0 ≤ size') (opposite : negative' ≠ negative) :
    |(if negative then -size else size) - (if negative' then -size' else size')| = size + size' := by
  have sum : 0 ≤ size + size' := add_nonneg nonneg nonneg'
  cases negative with
  | false =>
    obtain rfl : negative' = true := by simpa using opposite
    simpa using abs_of_nonneg sum
  | true =>
    obtain rfl : negative' = false := by simpa using opposite
    rw [if_pos rfl, if_neg Bool.false_ne_true, ← neg_add', abs_neg, abs_of_nonneg sum]

theorem isNearest_signed {size : ℚ} (nonneg : 0 ≤ size)
    (nearest : format.NearestBelow format.infinityRank size rank) (negative : Bool) :
    IsNearest (if negative then -size else size) (signed negative rank) := by
  refine ⟨_, value?_signed nearest.bounded, fun other candidate known => ?_⟩
  obtain ⟨negative', rank', rfl, finite, rfl⟩ := value?_eq_some_iff.mp known
  rw [distance_of_same_sign]
  by_cases opposite : negative' = negative
  · subst opposite
    rw [distance_of_same_sign]
    refine ⟨nearest.nearest rank' finite, fun tie => ?_⟩
    exact (nearest.even rank' finite tie).imp_left fun same => by rw [same]
  · -- Zero lies between the two, so a tie is also one with zero.
    rw [distance_of_other_sign nonneg (format.magnitude_nonneg rank') opposite]
    have zero := Nat.zero_lt_of_lt nearest.bounded
    have closer := nearest.nearest 0 zero
    have further := format.magnitude_nonneg rank'
    have origin : |size - format.magnitude 0| = size := by simpa using abs_of_nonneg nonneg
    refine ⟨by linarith, fun tie => .inr ?_⟩
    have same : |size - format.magnitude rank| = |size - format.magnitude 0| := by linarith
    rcases nearest.even 0 zero same with least | even
    · rw [IsEven, ← least]
    · exact even

section

variable {source target : Format}

theorem rounds_convert (wide : 2 ≤ target.exponentBits) (fine : 1 ≤ target.fractionBits)
    {rank : Fin (source.infinityRank + 1)} (finite : rank.val < source.infinityRank)
    (negative : Bool) :
    Rounds negative (source.magnitude rank) ((signed negative rank).convert : Binary target) := by
  have rounds := rounds_nearest wide fine negative (source.units rank)
    (Nat.two_pow_pos source.scale)
  rw [convert_of_finite finite]
  rwa [Nat.cast_pow, Nat.cast_two] at rounds

theorem Rounds.nearestBelow {number : Binary target} {size : ℚ} (rounds : Rounds negative size number)
    (inside : size < target.overflowBound) :
    ∃ rank : Fin (target.infinityRank + 1), number = signed negative rank ∧
      target.NearestBelow target.infinityRank size rank := by
  cases rounds with
  | finite _ nearest => exact ⟨_, rfl, nearest⟩
  | infinite beyond => exact absurd inside beyond.not_gt

theorem atMost_of_nearestBelow {left right : Fin (source.infinityRank + 1)}
    {rank rank' : Fin (target.infinityRank + 1)} {negative negative' : Bool}
    (left_ok : target.NearestBelow target.infinityRank (source.magnitude left) rank)
    (right_ok : target.NearestBelow target.infinityRank (source.magnitude right) rank')
    (le : (if negative then -source.magnitude left else source.magnitude left) ≤
      if negative' then -source.magnitude right else source.magnitude right) :
    AtMost (signed negative rank) (signed negative' rank') := by
  refine .finite (value?_signed left_ok.bounded) (value?_signed right_ok.bounded) ?_
  have left_nonneg := source.magnitude_nonneg left
  have right_nonneg := source.magnitude_nonneg right
  cases negative with
  | false =>
    cases negative' with
    | false => exact target.magnitude_le_magnitude (left_ok.le_of_le right_ok le)
    | true =>
      simp only [Bool.false_eq_true, if_false, if_true] at le
      have left_zero : source.magnitude left = 0 := by linarith
      have right_zero : source.magnitude right = 0 := by linarith
      rw [left_zero] at left_ok
      rw [right_zero] at right_ok
      simp [left_ok.eq_zero, right_ok.eq_zero]
  | true =>
    have nonneg := target.magnitude_nonneg rank
    have nonneg' := target.magnitude_nonneg rank'
    cases negative' with
    | false =>
      simp only [Bool.false_eq_true, if_false, if_true]
      linarith
    | true =>
      simp only [if_true, neg_le_neg_iff] at le ⊢
      exact target.magnitude_le_magnitude (right_ok.le_of_le left_ok le)

end

end Binary

namespace Single

def greatest : ℚ :=
  (2 ^ 24 - 1) * 2 ^ 104

theorem natCast_greatest : (((2 ^ 24 - 1) * 2 ^ 104 : Nat) : ℚ) = greatest := by
  norm_num [greatest]

theorem magnitude_largest :
    Format.binary32.magnitude (Format.binary32.infinityRank - 1) = greatest := by
  have units : Format.binary32.units (Format.binary32.infinityRank - 1) =
      (2 ^ 24 - 1) * 2 ^ 104 * 2 ^ Format.binary32.scale := by decide +kernel
  rw [Format.magnitude, units, Nat.cast_mul, natCast_greatest, Nat.cast_pow, Nat.cast_two,
    mul_div_cancel_right₀ _ Format.binary32.scale_pos.ne']

theorem greatest_lt_overflowBound : greatest < Format.binary32.overflowBound := by
  rw [← magnitude_largest]
  exact Format.largest_lt_overflowBound (by decide)

theorem greatestUnits_lt_iff {rank : Nat} :
    greatestUnits < Format.binary64.units rank ↔ greatest < Format.binary64.magnitude rank := by
  have units : greatestUnits = (2 ^ 24 - 1) * 2 ^ 104 * 2 ^ Format.binary64.scale := by
    decide +kernel
  have power : (2 : ℚ) ^ Format.binary64.scale = (2 ^ Format.binary64.scale : Nat) := by
    rw [Nat.cast_pow, Nat.cast_two]
  rw [Format.magnitude, lt_div_iff₀ Format.binary64.scale_pos, ← natCast_greatest, power,
    ← Nat.cast_mul, ← units, Nat.cast_lt]

section

variable {negative : Bool} {rank : Fin (Format.binary64.infinityRank + 1)}

theorem ofDouble?_of_finite (finite : rank.val < Format.binary64.infinityRank) :
    ofDouble? (.signed negative rank) =
      if greatest < Format.binary64.magnitude rank then none
      else some (Binary.signed negative rank).convert := by
  simp only [ofDouble?, Binary.isFinite, finite, decide_true, Bool.true_and, decide_eq_true_eq,
    greatestUnits_lt_iff]

theorem ofDouble?_infinity (negative : Bool) :
    ofDouble? (.infinity negative) = some (.infinity negative) := by
  rw [Binary.infinity, ofDouble?_signed fun finite => absurd finite (Nat.lt_irrefl _)]
  exact congrArg some (Binary.convert_of_infinite rfl)

theorem abs_signed (rank : Nat) (negative : Bool) :
    |if negative then -Format.binary64.magnitude rank else Format.binary64.magnitude rank| =
      Format.binary64.magnitude rank := by
  have nonneg := abs_of_nonneg (Format.binary64.magnitude_nonneg rank)
  cases negative with
  | false => exact nonneg
  | true => rw [if_pos rfl, abs_neg, nonneg]

theorem ofDouble?_eq_none_iff {number : Double} :
    ofDouble? number = none ↔ ∃ value, number.value? = some value ∧ greatest < |value| := by
  cases number with
  | nan => simp [ofDouble?, Binary.value?]
  | signed negative rank =>
    rcases Binary.infinite_or_finite rank with infinite | finite
    · have last : rank = Fin.last _ := Fin.ext infinite
      rw [last]
      change ofDouble? (.infinity negative) = _ ↔ ∃ value, Binary.value? (.infinity negative) = _ ∧ _
      simp [ofDouble?_infinity, Binary.value?_infinity]
    · rw [ofDouble?_of_finite finite, Binary.value?_signed finite]
      simp [abs_signed]

theorem exists_nearestBelow (finite : rank.val < Format.binary64.infinityRank) {single : Single}
    (narrowed : ofDouble? (.signed negative rank) = some single) :
    ∃ rank', single = .signed negative rank' ∧
      Format.binary32.NearestBelow Format.binary32.infinityRank
        (Format.binary64.magnitude rank) rank' := by
  rw [ofDouble?_of_finite finite] at narrowed
  split at narrowed
  · contradiction
  · next inside =>
    have rounds : Binary.Rounds negative (Format.binary64.magnitude rank) single := by
      rw [← Option.some.inj narrowed]
      exact Binary.rounds_convert (by decide) (by decide) finite negative
    exact rounds.nearestBelow ((not_lt.mp inside).trans_lt greatest_lt_overflowBound)

theorem atMost_of_ofDouble? {left right : Double} {single single' : Single}
    (le : left.AtMost right) (narrowed : ofDouble? left = some single)
    (narrowed' : ofDouble? right = some single') : single.AtMost single' := by
  cases le with
  | finite left_ok right_ok le =>
    obtain ⟨negative, rank, rfl, finite, rfl⟩ := Binary.value?_eq_some_iff.mp left_ok
    obtain ⟨negative', rank', rfl, finite', rfl⟩ := Binary.value?_eq_some_iff.mp right_ok
    obtain ⟨_, rfl, nearest⟩ := exists_nearestBelow finite narrowed
    obtain ⟨_, rfl, nearest'⟩ := exists_nearestBelow finite' narrowed'
    exact Binary.atMost_of_nearestBelow nearest nearest' le
  | infinity real =>
    rw [ofDouble?_infinity] at narrowed'
    cases narrowed'
    exact .infinity (ofDouble?_ne_nan real narrowed)
  | negInfinity real =>
    rw [ofDouble?_infinity] at narrowed
    cases narrowed
    exact .negInfinity (ofDouble?_ne_nan real narrowed')

theorem exists_isNearest {value : ℚ}
    (known : (Binary.signed negative rank : Double).value? = some value)
    (inside : |value| ≤ greatest) :
    ∃ rank', ofDouble? (.signed negative rank) = some (.signed negative rank') ∧
      Binary.IsNearest value (.signed negative rank' : Single) := by
  obtain ⟨_, _, same, finite, rfl⟩ := Binary.value?_eq_some_iff.mp known
  cases same
  rw [abs_signed] at inside
  have narrowed : ofDouble? (.signed negative rank) = _ := ofDouble?_of_finite finite
  rw [if_neg (not_lt.mpr inside)] at narrowed
  obtain ⟨rank', same, nearest⟩ := exists_nearestBelow finite narrowed
  rw [same] at narrowed
  exact ⟨rank', narrowed, Binary.isNearest_signed (Format.magnitude_nonneg _ _) nearest negative⟩

end

end Single

end CombinatorJson
