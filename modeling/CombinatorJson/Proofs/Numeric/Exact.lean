import CombinatorJson.Numeric.Integer
import CombinatorJson.Numeric.Nearest
import CombinatorJson.Proofs.Numeric.Rounding

set_option autoImplicit false

namespace CombinatorJson

namespace Format

variable {format : Format} {rank other : Nat}

theorem units_succ_of_lt (subnormal : rank < format.binade) :
    format.units (rank + 1) = format.units rank + 1 := by
  rw [units_of_lt subnormal]
  by_cases last : rank + 1 < format.binade
  · exact units_of_lt last
  · have edge : rank + 1 = format.binade := by omega
    rw [units_of_le (Nat.le_of_eq edge.symm), edge, Nat.mod_self, Nat.div_self format.binade_pos]
    simp

theorem units_succ_of_le (normal : format.binade ≤ rank) :
    format.units (rank + 1) = format.units rank + 2 ^ (rank / format.binade - 1) := by
  have positive := format.binade_pos
  have begun : 1 ≤ rank / format.binade := (Nat.one_le_div_iff positive).mpr normal
  have below := Nat.mod_lt rank positive
  have split := Nat.div_add_mod rank format.binade
  have normal' : format.binade ≤ rank + 1 := Nat.le_succ_of_le normal
  rw [units_of_le normal', units_of_le normal, ← Nat.add_one_mul]
  generalize rank / format.binade = quotient at *
  generalize rank % format.binade = fraction at *
  subst split
  by_cases last : fraction + 1 < format.binade
  · rw [Nat.add_assoc, Nat.mul_add_div positive, Nat.div_eq_of_lt last, Nat.mul_add_mod,
      Nat.mod_eq_of_lt last]
    rfl
  · -- A carry out of the fraction doubles the place.
    have full : fraction + 1 = format.binade := by omega
    have carry : format.binade * quotient + fraction + 1 = format.binade * (quotient + 1) := by
      rw [Nat.add_assoc, full, Nat.mul_succ]
    have twice : format.binade + fraction + 1 = format.binade * 2 := by omega
    rw [carry, Nat.mul_div_cancel_left _ positive, Nat.mul_mod_right, twice, Nat.mul_assoc,
      ← Nat.pow_succ', Nat.succ_eq_add_one, Nat.sub_add_cancel begun]
    rfl

theorem units_lt_units (less : rank < other) : format.units rank < format.units other := by
  -- One rank further is more by one in the last place.
  have step (rank : Nat) : format.units rank < format.units (rank + 1) := by
    by_cases subnormal : rank < format.binade
    · rw [units_succ_of_lt subnormal]
      exact Nat.lt_succ_self _
    · rw [units_succ_of_le (Nat.le_of_not_lt subnormal)]
      exact Nat.lt_add_of_pos_right (Nat.two_pow_pos _)
  induction less with
  | refl => exact step rank
  | @step other _ ih => exact Nat.lt_trans ih (step other)

theorem units_le_units (less : rank ≤ other) : format.units rank ≤ format.units other := by
  rcases Nat.eq_or_lt_of_le less with rfl | less
  · exact Nat.le_refl _
  · exact Nat.le_of_lt (units_lt_units less)

theorem units_eq_mul (format : Format) (rank : Nat) :
    ∃ leading power, format.units rank = leading * 2 ^ power ∧ leading < 2 * format.binade ∧
      power ≤ rank / format.binade - 1 := by
  have positive := format.binade_pos
  by_cases subnormal : rank < format.binade
  · exact ⟨rank, 0, by simp [units_of_lt subnormal], by omega, Nat.zero_le _⟩
  · have below := Nat.mod_lt rank positive
    exact ⟨_, _, units_of_le (Nat.le_of_not_lt subnormal), by omega, Nat.le_refl _⟩

theorem rankOfUnits_lt {units : Nat}
    (bounded : format.dropped units + 3 ≤ 2 ^ format.exponentBits) :
    format.rankOfUnits units < format.infinityRank := by
  have leading := leading_lt format units
  calc format.rankOfUnits units
    _ < format.dropped units * format.binade + 2 * format.binade := Nat.add_lt_add_left leading _
    _ = (format.dropped units + 2) * format.binade := (Nat.add_mul _ _ _).symm
    _ ≤ format.infinityRank := by
      rw [infinityRank_eq]
      exact Nat.mul_le_mul_right _ (by omega)

theorem nearestRank_of_few {numerator denominator leading power : Nat}
    (positive : 0 < denominator)
    (exact : numerator * 2 ^ format.scale = leading * 2 ^ power * denominator)
    (few : leading < 2 * format.binade) (bounded : power + 3 ≤ 2 ^ format.exponentBits) :
    format.nearestRank numerator denominator < format.infinityRank ∧
      format.units (format.nearestRank numerator denominator) = leading * 2 ^ power := by
  have divides := dropped_divides_of_few few power
  have rank := nearestRank_of_units positive exact divides
  have short : format.rankOfUnits (leading * 2 ^ power) < format.infinityRank := by
    have dropped : format.dropped (leading * 2 ^ power) + 3 ≤ 2 ^ format.exponentBits :=
      Nat.le_trans (Nat.add_le_add_right (dropped_le few) 3) bounded
    exact rankOfUnits_lt dropped
  rw [rank, Nat.min_eq_right (Nat.le_of_lt short)]
  exact ⟨short, units_rankOfUnits divides⟩

structure Widens (source target : Format) : Prop where
  fraction : source.fractionBits ≤ target.fractionBits
  scale : source.scale ≤ target.scale
  exponent : 2 ^ source.exponentBits + target.scale + 3 ≤ 2 ^ target.exponentBits + source.scale

namespace Widens

variable {source target : Format}

theorem nearestRank (widens : source.Widens target) (finite : rank < source.infinityRank) :
    target.nearestRank (source.units rank) (2 ^ source.scale) < target.infinityRank ∧
      target.units (target.nearestRank (source.units rank) (2 ^ source.scale)) =
        source.units rank * 2 ^ (target.scale - source.scale) := by
  obtain ⟨fraction, scale, exponent⟩ := widens
  obtain ⟨leading, power, units, few, short⟩ := source.units_eq_mul rank
  have quotient : rank / source.binade < 2 ^ source.exponentBits - 1 :=
    (Nat.div_lt_iff_lt_mul source.binade_pos).mpr finite
  have room : power + (target.scale - source.scale) + 3 ≤ 2 ^ target.exponentBits := by
    generalize rank / source.binade = exponent at *
    generalize 2 ^ source.exponentBits = top at *
    omega
  have regrouped : source.units rank * 2 ^ (target.scale - source.scale) =
      leading * 2 ^ (power + (target.scale - source.scale)) := by
    rw [units, Nat.mul_assoc, Nat.pow_add]
  have exact : source.units rank * 2 ^ target.scale =
      leading * 2 ^ (power + (target.scale - source.scale)) * 2 ^ source.scale := by
    rw [← regrouped, Nat.mul_assoc, ← Nat.pow_add, Nat.sub_add_cancel scale]
  have few' : leading < 2 * target.binade :=
    Nat.lt_of_lt_of_le few (Nat.mul_le_mul_left 2 (Nat.pow_le_pow_right (by decide) fraction))
  rw [regrouped]
  exact nearestRank_of_few (Nat.two_pow_pos _) exact few' room

theorem nearestRank_back (widens : source.Widens target) (bounded : rank ≤ source.infinityRank) :
    source.nearestRank (source.units rank * 2 ^ (target.scale - source.scale))
      (2 ^ target.scale) = rank := by
  apply nearestRank_exact bounded (Nat.two_pow_pos _)
  rw [Nat.mul_assoc, ← Nat.pow_add, Nat.sub_add_cancel widens.scale]

end Widens

end Format

namespace Binary

variable {format : Format}

theorem integer?_ofInt {value : Int} (few : value.natAbs < 2 * format.binade)
    (bounded : format.scale + 3 ≤ 2 ^ format.exponentBits) :
    (ofInt value : Binary format).integer? = some value := by
  have exact : value.natAbs * 2 ^ format.scale = value.natAbs * 2 ^ format.scale * 1 :=
    (Nat.mul_one _).symm
  obtain ⟨finite, units⟩ := Format.nearestRank_of_few Nat.one_pos exact few bounded
  have whole : value.natAbs * 2 ^ format.scale % 2 ^ format.scale = 0 := Nat.mul_mod_left _ _
  have quotient : value.natAbs * 2 ^ format.scale / 2 ^ format.scale = value.natAbs :=
    Nat.mul_div_cancel _ (Nat.two_pow_pos _)
  simp only [ofInt, nearest, integer?, units, Nat.pow_eq, whole, quotient, Nat.ne_of_lt finite, ne_eq,
    not_true_eq_false, or_self, if_false, decide_eq_true_eq, Int.ofNat_eq_natCast,
    Option.some.injEq]
  split <;> omega

section Conversion

variable {source target : Format} {negative : Bool} {rank : Fin (source.infinityRank + 1)}

theorem convert_of_infinite (infinite : rank.val = source.infinityRank) :
    (signed negative rank).convert = (infinity negative : Binary target) :=
  if_pos infinite

theorem convert_of_finite (finite : rank.val < source.infinityRank) :
    (signed negative rank).convert =
      (nearest negative (source.units rank) (2 ^ source.scale) : Binary target) :=
  if_neg (Nat.ne_of_lt finite)

theorem infinite_or_finite (rank : Fin (source.infinityRank + 1)) :
    rank.val = source.infinityRank ∨ rank.val < source.infinityRank :=
  Nat.eq_or_lt_of_le (Nat.le_of_lt_succ rank.isLt)

theorem convert_convert (widens : source.Widens target)
    (number : Binary source) : (number.convert : Binary target).convert = number := by
  cases number with
  | nan => rfl
  | signed negative rank =>
    rcases infinite_or_finite rank with infinite | finite
    · have last : Fin.last _ = rank := Fin.ext infinite.symm
      rw [convert_of_infinite infinite, ← last]
      exact convert_of_infinite rfl
    · obtain ⟨wide, units⟩ := widens.nearestRank finite
      have back := widens.nearestRank_back (Nat.le_of_lt finite)
      rw [convert_of_finite finite, nearest, convert_of_finite wide]
      simp only [nearest, units, back]

end Conversion

end Binary

namespace Double

theorem roundInt?_of_moderate {value : Int} (moderate : value.natAbs < 2 ^ 53) :
    roundInt? value = some value :=
  Binary.integer?_ofInt moderate (by decide)

end Double

namespace IntegerType

theorem bounds_read (type : IntegerType) :
    Double.roundInt? type.least = some type.least ∧
      Double.addInts? type.greatest 1 = some (type.greatest + 1) := by
  -- Where the greatest value has no double of its own, the double above it is the limit, and adding
  -- one to that changes nothing.
  obtain ⟨signed, width⟩ := type
  cases signed <;> cases width <;> decide +kernel

theorem bounds_of_exact {type : IntegerType} (exact : type.isExact = true) :
    (type.least - 1).natAbs < 2 ^ 53 ∧ (type.greatest + 1).natAbs < 2 ^ 53 := by
  obtain ⟨signed, width⟩ := type
  cases width <;> cases signed <;> revert exact <;> decide

theorem contains_zero (type : IntegerType) : type.Contains 0 := by
  obtain ⟨signed, width⟩ := type
  cases width <;> cases signed <;> decide

theorem moderate_of_contains {type : IntegerType} {value : Int} (exact : type.isExact = true)
    (contained : type.Contains value) : value.natAbs < 2 ^ 53 := by
  obtain ⟨least, greatest⟩ := bounds_of_exact exact
  obtain ⟨lower, upper⟩ := contained
  obtain ⟨nonpos, nonneg⟩ := type.contains_zero
  omega

theorem ofDouble?_eq {type : IntegerType} {number : Double} {value least limit : Int}
    (read : number.integer? = some value) (lower : Double.roundInt? type.least = some least)
    (upper : Double.addInts? type.greatest 1 = some limit) :
    type.ofDouble? number = if least ≤ value ∧ value < limit then some value else none := by
  unfold ofDouble?
  rw [read, lower, upper]
  rfl

theorem ofDouble?_eq_some_iff {type : IntegerType} {number : Double} {value : Int} :
    type.ofDouble? number = some value ↔ number.integer? = some value ∧ type.Contains value := by
  obtain ⟨least, limit⟩ := type.bounds_read
  cases whole : number.integer? with
  | none => simp [ofDouble?, whole]
  | some integer =>
    rw [ofDouble?_eq whole least limit, Contains]
    grind

theorem ofDouble?_ofInt {type : IntegerType} {value : Int} (exact : type.isExact = true)
    (contained : type.Contains value) : type.ofDouble? (.ofInt value) = some value :=
  ofDouble?_eq_some_iff.mpr
    ⟨Double.roundInt?_of_moderate (moderate_of_contains exact contained), contained⟩

end IntegerType

namespace Single

theorem widens : Format.binary32.Widens Format.binary64 :=
  ⟨by decide, by decide, by decide⟩

theorem not_beyond {rank : Nat} (finite : rank < Format.binary32.infinityRank) :
    ¬ greatestUnits < Format.binary64.units
      (Format.binary64.nearestRank (Format.binary32.units rank) (2 ^ Format.binary32.scale)) := by
  rw [(widens.nearestRank finite).2, ← Nat.pow_eq, greatestUnits]
  have largest : Format.binary32.units rank ≤
      Format.binary32.units (Format.binary32.infinityRank - 1) :=
    Format.units_le_units (Nat.le_sub_one_of_lt finite)
  generalize Nat.pow 2 (Format.binary64.scale - Format.binary32.scale) = factor
  exact Nat.not_lt.mpr (Nat.mul_le_mul_right factor largest)

theorem ofDouble?_signed {negative : Bool} {rank : Fin (Format.binary64.infinityRank + 1)}
    (inside : rank.val < Format.binary64.infinityRank →
      ¬ greatestUnits < Format.binary64.units rank) :
    ofDouble? (.signed negative rank) = some (Binary.signed negative rank).convert := by
  apply if_neg
  intro beyond
  simp only [Binary.isFinite, Bool.and_eq_true, decide_eq_true_eq] at beyond
  exact inside beyond.1 beyond.2

theorem ofDouble?_convert (value : Single) : ofDouble? value.convert = some value := by
  have back := Binary.convert_convert widens value
  cases value with
  | nan => rfl
  | signed negative rank =>
    rcases Binary.infinite_or_finite rank with infinite | finite
    · rw [Binary.convert_of_infinite infinite, Binary.infinity] at back ⊢
      rw [ofDouble?_signed fun finite => absurd finite (Nat.lt_irrefl _), back]
    · have inside := not_beyond finite
      rw [Binary.convert_of_finite finite, Binary.nearest] at back ⊢
      rw [ofDouble?_signed, back]
      exact fun _ => inside

theorem ofDouble?_ne_nan {number : Double} {value : Single} (real : number ≠ .nan)
    (read : ofDouble? number = some value) : value ≠ .nan := by
  cases number with
  | nan => contradiction
  | signed negative rank =>
    simp only [ofDouble?] at read
    split at read
    · contradiction
    · obtain rfl := Option.some.inj read
      rw [Binary.convert]
      split <;> nofun

end Single

end CombinatorJson
