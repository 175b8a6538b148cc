import CombinatorJson.Proofs.Numeric.Narrow
import CombinatorJson.Proofs.Typed.Parts
import CombinatorJson.Typed.Encode

set_option autoImplicit false

namespace CombinatorJson.Json

variable {schema : Schema}

theorem decode_single_eq_ok_iff {number : Double} {single : Single} :
    (Json.number number).decode schema .single = .ok (.single single) ↔
      Single.ofDouble? number = some single := by
  change (Json.number number).toSingle = _ ↔ _
  rw [toSingle_eq_ok_iff]
  simp

theorem decode_single_eq_error_iff {number : Double} :
    (Json.number number).decode schema .single = .error (.numberOutOfRange "f32" number) ↔
      Single.ofDouble? number = none := by
  change (Json.number number).toSingle = _ ↔ _
  rw [toSingle_number]
  cases Single.ofDouble? number <;> simp

/-- Only a finite number beyond the greatest single is out of range. Any other finite number becomes
the nearest single, in the order of the numbers, and a single is what its own number is read as. -/
theorem decode_single_narrows (schema : Schema) :
    (∀ number : Double,
      (Json.number number).decode schema .single = .error (.numberOutOfRange "f32" number) ↔
        ∃ value, number.value? = some value ∧ Single.greatest < |value|) ∧
    (Json.number .nan).decode schema .single = .ok (.single .nan) ∧
    (∀ negative, (Json.number (.infinity negative)).decode schema .single =
      .ok (.single (.infinity negative))) ∧
    (∀ negative rank value, (Binary.signed negative rank : Double).value? = some value →
      |value| ≤ Single.greatest →
      ∃ rank', (Json.number (.signed negative rank)).decode schema .single =
          .ok (.single (.signed negative rank')) ∧
        Binary.IsNearest value (.signed negative rank' : Single)) ∧
    (∀ (left right : Double) (single single' : Single), left.AtMost right →
      (Json.number left).decode schema .single = .ok (.single single) →
      (Json.number right).decode schema .single = .ok (.single single') →
      single.AtMost single') ∧
    ∀ single : Single,
      (Datum.single single).toJson.decode schema .single = .ok (.single single) := by
  refine ⟨fun number => ?_, ?_, fun negative => ?_, ?_, ?_, fun single => ?_⟩
  · rw [decode_single_eq_error_iff, Single.ofDouble?_eq_none_iff]
  · rfl
  · exact decode_single_eq_ok_iff.mpr (Single.ofDouble?_infinity negative)
  · intro negative rank value known inside
    obtain ⟨rank', narrowed, nearest⟩ := Single.exists_isNearest known inside
    exact ⟨rank', decode_single_eq_ok_iff.mpr narrowed, nearest⟩
  · intro left right single single' le read read'
    rw [decode_single_eq_ok_iff] at read read'
    exact Single.atMost_of_ofDouble? le read read'
  · rw [Datum.toJson, decode_single_eq_ok_iff, Single.ofDouble?_convert]

def halfway : Double :=
  -- As near to zero as to the first single below it.
  .signed true ⟨873 * 2 ^ 52, by decide⟩

theorem value_halfway : halfway.value? = some (-1 / 2 ^ 150) := by
  have units : Format.binary64.units (873 * 2 ^ 52) = 2 ^ 924 := by decide +kernel
  have scale : Format.binary64.scale = 150 + 924 := by decide
  refine Binary.value?_eq_some_iff.mpr ⟨true, _, rfl, by decide, ?_⟩
  rw [if_pos rfl, Format.magnitude, units, scale, Nat.cast_pow, Nat.cast_two, pow_add, neg_div,
    div_mul_cancel_right₀ (by positivity), one_div]

theorem decode_single_narrows_halfway :
    halfway.value? = some (-1 / 2 ^ 150) ∧ |(-1 / 2 ^ 150 : ℚ)| ≤ Single.greatest ∧
    (Binary.infinity true).AtMost halfway ∧
    ∃ rank, (Json.number halfway).decode [] .single = .ok (.single (.signed true rank)) ∧
      Binary.IsNearest (-1 / 2 ^ 150) (.signed true rank : Single) ∧
      (Binary.infinity true : Single).AtMost (.signed true rank) := by
  obtain ⟨-, -, infinite, finite, monotone, -⟩ := decode_single_narrows []
  have inside : |(-1 / 2 ^ 150 : ℚ)| ≤ Single.greatest :=
    abs_le.mpr ⟨by norm_num [Single.greatest], by norm_num [Single.greatest]⟩
  have real : halfway ≠ .nan := by simp [halfway]
  have least : (Binary.infinity true).AtMost halfway := .negInfinity real
  obtain ⟨rank, read, nearest⟩ := finite true _ _ value_halfway inside
  exact ⟨value_halfway, inside, least, rank, read, nearest,
    monotone _ _ _ _ least (infinite true) read⟩

end CombinatorJson.Json
