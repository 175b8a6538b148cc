import Mathlib.Algebra.Order.Field.Rat
import Mathlib.Tactic.FieldSimp
import Mathlib.Tactic.Linarith
import Mathlib.Tactic.Ring
import CombinatorJson.Proofs.Numeric.Decimal
import CombinatorJson.Proofs.Numeric.Exact

set_option autoImplicit false

namespace CombinatorJson

inductive Nearer (f : Nat → ℚ) (value : ℚ) (place : Nat) : Nat → Prop where
  | lower (near : value - f place < f (place + 1) - value) : Nearer f value place place
  | upper (near : f (place + 1) - value < value - f place) : Nearer f value place (place + 1)
  | even {rank : Nat} (tie : value - f place = f (place + 1) - value)
      (neighbour : rank = place ∨ rank = place + 1) (even_ok : rank % 2 = 0) :
      Nearer f value place rank

section

variable {f : Nat → ℚ} {value : ℚ}

theorem Nearer.nearest (increases : ∀ rank other, rank < other → f rank < f other)
    {place rank : Nat} (lower : f place ≤ value) (upper : value < f (place + 1))
    (nearer : Nearer f value place rank) (other : Nat) :
    |value - f rank| ≤ |value - f other| ∧
      (|value - f rank| = |value - f other| → other = rank ∨ rank % 2 = 0) := by
  have below : |value - f place| = value - f place := abs_of_nonneg (by linarith)
  have above : |value - f (place + 1)| = f (place + 1) - value := by
    rw [abs_sub_comm]
    exact abs_of_nonneg (by linarith)
  have closest : |value - f rank| ≤ value - f place ∧ |value - f rank| ≤ f (place + 1) - value := by
    cases nearer with
    | lower near => exact ⟨below.le, below.le.trans near.le⟩
    | upper near => exact ⟨above.le.trans near.le, above.le⟩
    | even tie neighbour =>
      rcases neighbour with rfl | rfl
      · exact ⟨below.le, below.le.trans tie.le⟩
      · exact ⟨above.le.trans tie.ge, above.le⟩
  have further (strict : |value - f rank| < |value - f other|) :
      |value - f rank| ≤ |value - f other| ∧
        (|value - f rank| = |value - f other| → other = rank ∨ rank % 2 = 0) :=
    ⟨strict.le, fun same => absurd same strict.ne⟩
  rcases Nat.lt_trichotomy other place with less | rfl | greater
  · have grows := increases _ _ less
    have away : value - f other ≤ |value - f other| := le_abs_self _
    apply further
    linarith
  · refine ⟨closest.1.trans below.ge, fun same => ?_⟩
    rw [below] at same
    cases nearer with
    | lower => exact .inl rfl
    | upper near => linarith
    | even _ _ even_ok => exact .inr even_ok
  · rcases Nat.eq_or_lt_of_le (Nat.succ_le_of_lt greater) with rfl | greater
    · refine ⟨closest.2.trans above.ge, fun same => ?_⟩
      rw [above] at same
      cases nearer with
      | lower near => linarith
      | upper => exact .inl rfl
      | even _ _ even_ok => exact .inr even_ok
    · have grows := increases _ _ greater
      have away : -(value - f other) ≤ |value - f other| := neg_le_abs _
      apply further
      linarith

theorem Nearer.neighbour {place rank : Nat} (nearer : Nearer f value place rank) :
    rank = place ∨ rank = place + 1 := by
  cases nearer with
  | lower => exact .inl rfl
  | upper => exact .inr rfl
  | even _ neighbour => exact neighbour

theorem nearer_roundHalfEven {scale : ℚ} {start numerator denominator : Nat} (positive : 0 < scale)
    (even : start % 2 = 0)
    (lower : (value - f (start + numerator / denominator)) * scale = (numerator % denominator : Nat))
    (upper : (f (start + numerator / denominator + 1) - value) * scale =
      denominator - (numerator % denominator : Nat)) :
    Nearer f value (start + numerator / denominator)
      (start + roundHalfEven numerator denominator) := by
  generalize quotient : numerator / denominator = below at *
  generalize remainder : numerator % denominator = rest at *
  simp only [roundHalfEven, quotient, remainder]
  rcases Nat.lt_trichotomy (2 * rest) denominator with less | same | greater
  · have less' : (2 * rest : ℚ) < denominator := by exact_mod_cast less
    rw [if_pos (.inl less)]
    refine .lower (lt_of_mul_lt_mul_right ?_ positive.le)
    linarith
  · have same' : (2 * rest : ℚ) = denominator := by exact_mod_cast same
    have tie : value - f (start + below) = f (start + below + 1) - value := by
      apply mul_right_cancel₀ positive.ne'
      linarith
    by_cases parity : below % 2 = 0
    · rw [if_pos (.inr ⟨same, parity⟩)]
      exact .even tie (.inl rfl) (by omega)
    · rw [if_neg (by omega)]
      exact .even tie (.inr rfl) (by omega)
  · have greater' : (denominator : ℚ) < 2 * rest := by exact_mod_cast greater
    rw [if_neg (by omega)]
    refine .upper (lt_of_mul_lt_mul_right ?_ positive.le)
    linarith

end

namespace Format

variable {format : Format} {rank other : Nat}

def magnitude (format : Format) (rank : Nat) : ℚ :=
  format.units rank / 2 ^ format.scale

theorem scale_pos (format : Format) : (0 : ℚ) < 2 ^ format.scale :=
  pow_pos two_pos _

theorem magnitude_lt_magnitude (format : Format) (less : rank < other) :
    format.magnitude rank < format.magnitude other := by
  have units : (format.units rank : ℚ) < format.units other := by exact_mod_cast units_lt_units less
  exact div_lt_div_of_pos_right units format.scale_pos

theorem magnitude_le_magnitude (format : Format) (less : rank ≤ other) :
    format.magnitude rank ≤ format.magnitude other := by
  rcases Nat.eq_or_lt_of_le less with rfl | less
  · exact le_rfl
  · exact (format.magnitude_lt_magnitude less).le

theorem eq_of_magnitude_eq (same : format.magnitude rank = format.magnitude other) :
    rank = other := by
  rcases Nat.lt_trichotomy rank other with less | rfl | greater
  · exact absurd same (format.magnitude_lt_magnitude less).ne
  · rfl
  · exact absurd same (format.magnitude_lt_magnitude greater).ne'

theorem units_of_split {exponent fraction : Nat} (small : fraction < format.binade) :
    format.units ((exponent + 1) * format.binade + fraction) =
      (format.binade + fraction) * 2 ^ exponent := by
  have positive := format.binade_pos
  have normal : format.binade ≤ (exponent + 1) * format.binade + fraction :=
    Nat.le_add_right_of_le (Nat.le_mul_of_pos_left _ (Nat.succ_pos _))
  have quotient : ((exponent + 1) * format.binade + fraction) / format.binade = exponent + 1 := by
    rw [Nat.add_comm, Nat.add_mul_div_right _ _ positive, Nat.div_eq_of_lt small, Nat.zero_add]
  have remainder : ((exponent + 1) * format.binade + fraction) % format.binade = fraction := by
    rw [Nat.add_comm, Nat.add_mul_mod_self_right, Nat.mod_eq_of_lt small]
  rw [units_of_le normal, quotient, remainder, Nat.add_sub_cancel]

theorem units_of_leading {dropped leading : Nat} (few : leading ≤ 2 * format.binade)
    (normal : dropped = 0 ∨ format.binade ≤ leading) :
    format.units (dropped * format.binade + leading) = leading * 2 ^ dropped := by
  by_cases subnormal : leading < format.binade
  · obtain rfl : dropped = 0 := normal.resolve_right (Nat.not_le.mpr subnormal)
    simp [units_of_lt subnormal]
  obtain ⟨fraction, rfl⟩ := Nat.exists_eq_add_of_le (Nat.le_of_not_lt subnormal)
  by_cases small : fraction < format.binade
  · rw [← units_of_split small]
    congr 1
    ring
  · -- One more than there is room for: the next power of two.
    have full : fraction = format.binade := by omega
    have carried : format.units ((dropped + 2) * format.binade) =
        format.binade * 2 ^ (dropped + 1) := units_of_split format.binade_pos
    rw [full, ← Nat.two_mul, ← Nat.add_mul, carried, Nat.pow_succ]
    ring

/-- Among the ranks below a limit, none is nearer, and only one of even rank is as near as
another. -/
structure NearestBelow (format : Format) (limit : Nat) (value : ℚ) (rank : Nat) : Prop where
  bounded : rank < limit
  nearest : ∀ other < limit, |value - format.magnitude rank| ≤ |value - format.magnitude other|
  even : ∀ other < limit, |value - format.magnitude rank| = |value - format.magnitude other| →
    other = rank ∨ rank % 2 = 0

section

variable (numerator : Nat) {denominator : Nat}

theorem exists_units_around (format : Format) (denominator : Nat) :
    ∃ dropped leading, leading = numerator * 2 ^ format.scale / (denominator * 2 ^ dropped) ∧
      format.nearestRank numerator denominator = min format.infinityRank (dropped * format.binade +
        roundHalfEven (numerator * 2 ^ format.scale) (denominator * 2 ^ dropped)) ∧
      format.units (dropped * format.binade + leading) = leading * 2 ^ dropped ∧
      format.units (dropped * format.binade + leading + 1) = (leading + 1) * 2 ^ dropped := by
  have few := format.leading_lt (numerator * 2 ^ format.scale / denominator)
  have normal : format.dropped (numerator * 2 ^ format.scale / denominator) = 0 ∨
      format.binade ≤ numerator * 2 ^ format.scale / denominator /
        2 ^ format.dropped (numerator * 2 ^ format.scale / denominator) := by
    by_cases subnormal : numerator * 2 ^ format.scale / denominator < format.binade
    · exact .inl (Nat.sub_eq_zero_of_le (log2_le_of_lt subnormal))
    · exact .inr (leading_bounds (Nat.le_of_not_lt subnormal)).1
  refine ⟨_, _, Nat.div_div_eq_div_mul .., rfl, units_of_leading few.le normal, ?_⟩
  rw [Nat.add_assoc]
  exact units_of_leading few (normal.imp_right Nat.le_succ_of_le)

theorem sub_magnitude_mul (positive : 0 < denominator) (rank : Nat) :
    ((numerator : ℚ) / denominator - format.magnitude rank) * (denominator * 2 ^ format.scale) =
      numerator * 2 ^ format.scale - format.units rank * denominator := by
  have nonzero : (denominator : ℚ) ≠ 0 := by exact_mod_cast positive.ne'
  have scale := format.scale_pos.ne'
  rw [magnitude]
  field_simp

theorem exists_nearer_nearestRank (fine : 1 ≤ format.fractionBits) (positive : 0 < denominator) :
    ∃ place rank, format.nearestRank numerator denominator = min format.infinityRank rank ∧
      format.magnitude place ≤ numerator / denominator ∧
      (numerator : ℚ) / denominator < format.magnitude (place + 1) ∧
      Nearer format.magnitude (numerator / denominator) place rank := by
  obtain ⟨dropped, leading, quotient, same, units, units'⟩ :=
    exists_units_around numerator format denominator
  have step : 0 < denominator * 2 ^ dropped := Nat.mul_pos positive (Nat.two_pow_pos dropped)
  have rest := Nat.mod_lt (numerator * 2 ^ format.scale) step
  have split : ((denominator * 2 ^ dropped : Nat) : ℚ) * leading +
      (numerator * 2 ^ format.scale % (denominator * 2 ^ dropped) : Nat) =
        numerator * 2 ^ format.scale := by
    rw [quotient]
    exact_mod_cast Nat.div_add_mod (numerator * 2 ^ format.scale) (denominator * 2 ^ dropped)
  have width : (0 : ℚ) < denominator * 2 ^ format.scale :=
    mul_pos (by exact_mod_cast positive) format.scale_pos
  -- The distances to the two neighbours are what the division leaves, and what it lacks.
  have lower : ((numerator : ℚ) / denominator - format.magnitude (dropped * format.binade + leading)) *
      (denominator * 2 ^ format.scale) =
        (numerator * 2 ^ format.scale % (denominator * 2 ^ dropped) : Nat) := by
    rw [sub_magnitude_mul numerator positive, units, ← split]
    push_cast
    ring
  have upper : (format.magnitude (dropped * format.binade + leading + 1) -
      (numerator : ℚ) / denominator) * (denominator * 2 ^ format.scale) =
        (denominator * 2 ^ dropped : Nat) -
          (numerator * 2 ^ format.scale % (denominator * 2 ^ dropped) : Nat) := by
    rw [← neg_sub, neg_mul, sub_magnitude_mul numerator positive, units', ← split]
    push_cast
    ring
  have even : dropped * format.binade % 2 = 0 := by
    have binade : 2 ∣ format.binade := Nat.pow_dvd_pow 2 fine
    exact Nat.mod_eq_zero_of_dvd (Nat.dvd_mul_left_of_dvd binade dropped)
  refine ⟨dropped * format.binade + leading, _, same, ?_, ?_, ?_⟩
  · have left : (0 : ℚ) ≤ (numerator * 2 ^ format.scale % (denominator * 2 ^ dropped) : Nat) :=
      Nat.cast_nonneg _
    rw [← lower] at left
    exact sub_nonneg.mp (nonneg_of_mul_nonneg_left left width)
  · have missing : (0 : ℚ) < (denominator * 2 ^ dropped : Nat) -
        (numerator * 2 ^ format.scale % (denominator * 2 ^ dropped) : Nat) :=
      sub_pos.mpr (by exact_mod_cast rest)
    rw [← upper] at missing
    exact sub_pos.mp (pos_of_mul_pos_left missing width.le)
  · subst quotient
    exact nearer_roundHalfEven width even lower upper

theorem nearestRank_nearest (fine : 1 ≤ format.fractionBits) (positive : 0 < denominator) :
    format.NearestBelow (format.infinityRank + 1) (numerator / denominator)
      (format.nearestRank numerator denominator) := by
  obtain ⟨place, rank, same, lower, upper, nearer⟩ :=
    exists_nearer_nearestRank numerator fine positive
  have all := nearer.nearest (fun _ _ => format.magnitude_lt_magnitude) lower upper
  rw [same]
  by_cases inside : rank ≤ format.infinityRank
  · rw [Nat.min_eq_right inside]
    exact ⟨Nat.lt_succ_of_le inside, fun other _ => (all other).1, fun other _ => (all other).2⟩
  -- The value is not below the last magnitude, so no smaller one is nearer.
  have last : format.infinityRank ≤ place := by
    have neighbour := nearer.neighbour
    omega
  have top := (format.magnitude_le_magnitude last).trans lower
  have distance (other : Nat) (bounded : other < format.infinityRank + 1) :
      |(numerator : ℚ) / denominator - format.magnitude other| =
        numerator / denominator - format.magnitude other := by
    have ordered := format.magnitude_le_magnitude (Nat.le_of_lt_succ bounded)
    exact abs_of_nonneg (sub_nonneg.mpr (ordered.trans top))
  have self := distance format.infinityRank (Nat.lt_succ_self _)
  rw [Nat.min_eq_left (Nat.le_of_not_le inside)]
  refine ⟨Nat.lt_succ_self _, fun other bounded => ?_, fun other bounded tie => ?_⟩
  · rw [self, distance other bounded]
    exact sub_le_sub_left (format.magnitude_le_magnitude (Nat.le_of_lt_succ bounded)) _
  · rw [self, distance other bounded] at tie
    exact .inl (eq_of_magnitude_eq (sub_right_injective tie).symm)

end

theorem NearestBelow.unique {limit : Nat} {value : ℚ} (left : format.NearestBelow limit value rank)
    (right : format.NearestBelow limit value other) : rank = other := by
  have tie := le_antisymm (left.nearest other right.bounded) (right.nearest rank left.bounded)
  by_contra different
  wlog less : rank < other generalizing rank other with smaller
  · exact smaller right left tie.symm (Ne.symm different) (by omega)
  have even := (left.even other right.bounded tie).resolve_left (Ne.symm different)
  have even' := (right.even rank left.bounded tie.symm).resolve_left different
  -- Between two even ranks lies an odd one, and it is nearer to the middle than both.
  have between : rank < rank + 1 ∧ rank + 1 < other := by omega
  have first := format.magnitude_lt_magnitude between.1
  have second := format.magnitude_lt_magnitude between.2
  have nearest := left.nearest (rank + 1) (between.2.trans right.bounded)
  have middle : value - format.magnitude rank = format.magnitude other - value := by
    rcases abs_eq_abs.mp tie with same | opposite
    · linarith
    · linarith
  have nearer : |value - format.magnitude (rank + 1)| < |value - format.magnitude rank| := by
    rw [abs_of_nonneg (by linarith : 0 ≤ value - format.magnitude rank), abs_lt]
    constructor <;> linarith
  exact absurd nearest nearer.not_ge

/-- Half way from the largest finite magnitude to the power of two after it. -/
def overflowBound (format : Format) : ℚ :=
  (format.magnitude (format.infinityRank - 1) + format.magnitude format.infinityRank) / 2

theorem infinityRank_even (fine : 1 ≤ format.fractionBits) : format.infinityRank % 2 = 0 := by
  have binade : 2 ∣ format.binade := Nat.pow_dvd_pow 2 fine
  exact Nat.mod_eq_zero_of_dvd (Nat.dvd_mul_left_of_dvd binade _)

theorem infinityRank_pos (wide : 2 ≤ format.exponentBits) : 0 < format.infinityRank := by
  have power : 2 ≤ 2 ^ format.exponentBits := Nat.le_self_pow (by omega) 2
  exact Nat.mul_pos (Nat.sub_pos_of_lt power) format.binade_pos

theorem NearestBelow.lt_infinityRank_iff (wide : 2 ≤ format.exponentBits)
    (fine : 1 ≤ format.fractionBits) {value : ℚ}
    (nearest : format.NearestBelow (format.infinityRank + 1) value rank) :
    rank < format.infinityRank ↔ value < format.overflowBound := by
  have positive := infinityRank_pos wide
  have even := infinityRank_even fine
  obtain ⟨last, top⟩ : ∃ last, format.infinityRank = last + 1 := Nat.exists_eq_add_one.mpr positive
  obtain ⟨bounded, nearest, tied⟩ := nearest
  rw [overflowBound, top, Nat.add_sub_cancel, lt_div_iff₀ two_pos]
  rw [top] at bounded nearest tied even
  have grows := format.magnitude_lt_magnitude (Nat.lt_succ_self last)
  constructor
  · intro finite
    have inside := format.magnitude_le_magnitude (Nat.le_of_lt_succ finite)
    by_contra beyond
    -- Infinity is at least as near, so the largest finite number ties with it; but it is odd.
    have away : |value - format.magnitude (last + 1)| ≤ value - format.magnitude last :=
      abs_le.mpr ⟨by linarith, by linarith⟩
    have near : |value - format.magnitude rank| = value - format.magnitude rank :=
      abs_of_nonneg (by linarith)
    have closer := nearest (last + 1) (Nat.lt_succ_self _)
    have tie := le_antisymm closer (by linarith)
    have same : rank = last := eq_of_magnitude_eq (le_antisymm inside (by linarith))
    have odd := tied (last + 1) (Nat.lt_succ_self _) tie
    omega
  · intro below
    by_contra infinite
    obtain rfl : rank = last + 1 := by omega
    have closer := nearest last (by omega)
    have away : value - format.magnitude (last + 1) = -(format.magnitude (last + 1) - value) := by
      ring
    have near : |value - format.magnitude last| < format.magnitude (last + 1) - value :=
      abs_lt.mpr ⟨by linarith, by linarith⟩
    rw [away, abs_neg] at closer
    linarith [le_abs_self (format.magnitude (last + 1) - value)]

theorem magnitude_infinityRank (wide : 2 ≤ format.exponentBits) :
    format.magnitude format.infinityRank = 2 ^ 2 ^ (format.exponentBits - 1) := by
  -- Infinity takes the place of the power of two that the exponents stop short of.
  have half : 2 * 2 ^ (format.exponentBits - 1) = 2 ^ format.exponentBits :=
    mul_pow_sub_one (by omega) 2
  have large : 2 ≤ 2 ^ (format.exponentBits - 1) := Nat.le_self_pow (by omega) 2
  have place : format.infinityRank = (2 ^ format.exponentBits - 2 + 1) * format.binade + 0 := by
    rw [infinityRank_eq, binade_eq, Nat.add_zero]
    congr 1
    omega
  have exponent : format.fractionBits + (2 ^ format.exponentBits - 2) =
      2 ^ (format.exponentBits - 1) + format.scale := by
    rw [scale_eq]
    omega
  rw [magnitude, place, units_of_split format.binade_pos, Nat.add_zero, binade_eq, ← Nat.pow_add,
    exponent, Nat.pow_add]
  push_cast
  exact mul_div_cancel_right₀ _ format.scale_pos.ne'

theorem le_overflowBound (wide : 2 ≤ format.exponentBits) :
    2 ^ 2 ^ (format.exponentBits - 1) / 2 ≤ format.overflowBound := by
  have nonneg : 0 ≤ format.magnitude (format.infinityRank - 1) :=
    div_nonneg (Nat.cast_nonneg _) format.scale_pos.le
  rw [overflowBound, magnitude_infinityRank wide]
  linarith

end Format

namespace Binary

variable {format : Format} {negative : Bool} {value : ℚ}

/-- The nearest number with a given sign, of two equally near ones the one of even rank; and
infinity from half way after the largest finite number on. -/
inductive Rounds (negative : Bool) (value : ℚ) : Binary format → Prop where
  | finite {rank : Fin (format.infinityRank + 1)} (below : value < format.overflowBound)
      (nearest : format.NearestBelow format.infinityRank value rank) :
      Rounds negative value (.signed negative rank)
  | infinite (beyond : format.overflowBound ≤ value) : Rounds negative value (infinity negative)

theorem Rounds.unique {left right : Binary format} (left_ok : Rounds negative value left)
    (right_ok : Rounds negative value right) : left = right := by
  cases left_ok with
  | finite below nearest =>
    cases right_ok with
    | finite _ nearest' => rw [Fin.ext (nearest.unique nearest')]
    | infinite beyond => exact absurd below beyond.not_gt
  | infinite beyond =>
    cases right_ok with
    | finite below _ => exact absurd below beyond.not_gt
    | infinite => rfl

theorem Rounds.isFinite_iff {number : Binary format} (rounds : Rounds negative value number) :
    number.isFinite = true ↔ value < format.overflowBound := by
  cases rounds with
  | finite below nearest => simp [isFinite, nearest.bounded, below]
  | infinite beyond => simp [infinity, isFinite, beyond]

theorem rounds_of_nearest (wide : 2 ≤ format.exponentBits) (fine : 1 ≤ format.fractionBits)
    {rank : Fin (format.infinityRank + 1)}
    (nearest : format.NearestBelow (format.infinityRank + 1) value rank) :
    Rounds negative value (.signed negative rank) := by
  by_cases below : value < format.overflowBound
  · have finite := (nearest.lt_infinityRank_iff wide fine).mpr below
    exact .finite below ⟨finite, fun other bounded => nearest.nearest other (Nat.lt_succ_of_lt bounded),
      fun other bounded => nearest.even other (Nat.lt_succ_of_lt bounded)⟩
  · have infinite := mt (nearest.lt_infinityRank_iff wide fine).mp below
    have bounded := Nat.le_of_lt_succ rank.isLt
    have last : rank = Fin.last _ := Fin.ext (Nat.le_antisymm bounded (Nat.not_lt.mp infinite))
    rw [last]
    exact .infinite (not_lt.mp below)

theorem rounds_nearest (wide : 2 ≤ format.exponentBits) (fine : 1 ≤ format.fractionBits)
    (negative : Bool) (numerator : Nat) {denominator : Nat} (positive : 0 < denominator) :
    Rounds negative (numerator / denominator)
      (nearest negative numerator denominator : Binary format) :=
  rounds_of_nearest wide fine (Format.nearestRank_nearest numerator fine positive)

theorem rounds_ofInt (wide : 2 ≤ format.exponentBits) (fine : 1 ≤ format.fractionBits)
    (value : Int) : Rounds (value < 0) |(value : ℚ)| (ofInt value : Binary format) := by
  have whole : |(value : ℚ)| = (value.natAbs : ℚ) / (1 : Nat) := by
    simp [Nat.cast_natAbs]
  rw [whole]
  exact rounds_nearest wide fine _ _ Nat.one_pos

theorem isFinite_ofInt {value : Int} (bounded : value.natAbs ≤ 2 ^ 64) :
    (ofInt value : Double).isFinite = true := by
  have wide : 2 ≤ Format.binary64.exponentBits := by decide
  have fine : 1 ≤ Format.binary64.fractionBits := by decide
  have least := Format.le_overflowBound wide
  have small : |(value : ℚ)| ≤ 2 ^ 64 := by
    rw [← Int.cast_abs, Int.abs_eq_natAbs]
    exact_mod_cast bounded
  have apart : (2 : ℚ) ^ 64 < 2 ^ 2 ^ (Format.binary64.exponentBits - 1) / 2 := by
    rw [lt_div_iff₀ two_pos, ← pow_succ]
    exact pow_lt_pow_right₀ one_lt_two (by decide)
  exact (rounds_ofInt wide fine value).isFinite_iff.mpr ((small.trans_lt apart).trans_le least)

end Binary

namespace Decimal

def value (decimal : Decimal) : ℚ :=
  decimal.digits * 10 ^ decimal.exponent

theorem value_eq (decimal : Decimal) : decimal.value = decimal.numerator / decimal.denominator := by
  obtain ⟨digits, exponent⟩ := decimal
  cases exponent with
  | ofNat power => simp [value, numerator, denominator]
  | negSucc power => simp [value, numerator, denominator, zpow_negSucc, div_eq_mul_inv]

end Decimal

namespace Binary

variable {format : Format}

theorem rounds_ofDecimal (wide : 2 ≤ format.exponentBits) (fine : 1 ≤ format.fractionBits)
    (negative : Bool) (decimal : Decimal) :
    Rounds negative decimal.value (ofDecimal negative decimal : Binary format) := by
  rw [decimal.value_eq]
  have same : (ofDecimal negative decimal : Binary format) =
      nearest negative decimal.numerator decimal.denominator :=
    congrArg (signed negative) (Fin.ext (Format.rankOfDecimal_eq wide decimal))
  rw [same]
  exact rounds_nearest wide fine negative _ decimal.denominator_pos

end Binary

end CombinatorJson
