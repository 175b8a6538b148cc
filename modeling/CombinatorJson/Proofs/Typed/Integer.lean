import CombinatorJson.Proofs.Grammar.Document
import CombinatorJson.Proofs.Numeric.Whole
import CombinatorJson.Proofs.Typed.Parts
import CombinatorJson.Typed.Reading

set_option autoImplicit false

namespace CombinatorJson

variable {schema : Schema} {type : IntegerType} {text : String} {value : Int}

namespace Json

theorem decode_integer_eq_ok_iff {number : Double} :
    (Json.number number).decode schema (.integer type) = .ok (.integer value) ↔
      number.value? = some (value : ℚ) ∧ type.Contains value := by
  change (Json.number number).toInteger type = _ ↔ _
  rw [toInteger_eq_ok_iff, ← Binary.integer?_eq_some_iff, ← IntegerType.ofDouble?_eq_some_iff]
  simp

theorem decode_integer_eq_error {number : Double}
    (never : ¬∃ value : Int, number.value? = some (value : ℚ) ∧ type.Contains value) :
    (Json.number number).decode schema (.integer type) =
      .error (.numberOutOfRange type.name number) := by
  change (Json.number number).toInteger type = _
  rw [toInteger_number]
  cases read : type.ofDouble? number with
  | none => rfl
  | some value =>
    have contained := IntegerType.ofDouble?_eq_some_iff.mp read
    rw [Binary.integer?_eq_some_iff] at contained
    exact absurd ⟨value, contained⟩ never

/-- A number is read as an integer exactly when it is one in the range of the type, and the cast,
which would bring any number into that range, leaves it as it is. -/
theorem decode_integer_exact (type : IntegerType) (number : Double) :
    (∀ value : Int, (Json.number number).decode schema (.integer type) = .ok (.integer value) ↔
      number.value? = some (value : ℚ) ∧ type.Contains value) ∧
    ((¬∃ value : Int, number.value? = some (value : ℚ) ∧ type.Contains value) →
      (Json.number number).decode schema (.integer type) =
        .error (.numberOutOfRange type.name number)) ∧
    ∀ value : Int, (Json.number number).decode schema (.integer type) = .ok (.integer value) →
      type.saturated number = value := by
  refine ⟨fun value => decode_integer_eq_ok_iff, decode_integer_eq_error, fun value decoded => ?_⟩
  rw [decode_integer_eq_ok_iff, ← Binary.integer?_eq_some_iff,
    ← IntegerType.ofDouble?_eq_some_iff] at decoded
  exact IntegerType.saturated_of_ofDouble? decoded

end Json

namespace Grammar

inductive IntegerText : List Char → Int → Prop where
  | mk {sign digits : List Char} {negative : Bool} (sign_ok : SignText sign negative)
      (digits_ok : Digits digits) :
      IntegerText (sign ++ digits)
        (if negative then -(decimalValue digits : Int) else decimalValue digits)

theorem IntegerText.valueText {text : List Char} (literal : IntegerText text value) :
    ∃ number : Double, ValueText text (.number number) ∧
      (number = .ofInt value ∨ value = 0 ∧ number.integer? = some 0) := by
  obtain @⟨sign, digits, negative, sign_ok, digits_ok⟩ := literal
  have number_ok := NumberText.mk sign_ok digits_ok .absent .absent
  simp only [List.append_nil, List.length_nil, Int.sub_zero, Nat.cast_zero] at number_ok
  refine ⟨_, .number number_ok, ?_⟩
  rw [Numeral.toBinary, Binary.ofDecimal_whole (by decide)]
  by_cases zero : decimalValue digits = 0
  · -- A zero keeps its sign, which an integer does not have.
    rw [zero]
    exact .inr ⟨by simp, by cases negative <;> decide +kernel⟩
  · exact .inl (Binary.nearest_eq_ofInt negative zero)

end Grammar

theorem decode_literal (literal : Grammar.IntegerText text.toList value) :
    decode schema (.integer type) text =
      ((Json.number (.ofInt value)).decode schema (.integer type)).mapError DecodeError.unfit := by
  obtain ⟨number, value_ok, same⟩ := literal.valueText
  have document_ok := Grammar.DocumentText.mk .nil value_ok .nil
  rw [List.nil_append, List.append_nil] at document_ok
  rw [decode, Json.parse_of_documentText document_ok]
  change ((Json.number number).decode schema (.integer type)).mapError DecodeError.unfit = _
  rcases same with rfl | ⟨rfl, zero⟩
  · rfl
  · have read (number : Double) (zero : number.integer? = some 0) :
        (Json.number number).decode schema (.integer type) = .ok (.integer 0) :=
      Json.decode_integer_eq_ok_iff.mpr
        ⟨Binary.integer?_eq_some_iff.mp zero, type.contains_zero⟩
    rw [read number zero, read (.ofInt 0) (by decide +kernel)]

theorem decode_literal_eq_ok_iff {read : Int} (literal : Grammar.IntegerText text.toList value) :
    decode schema (.integer type) text = .ok (.integer read) ↔
      (Binary.ofInt value : Double).value? = some (read : ℚ) ∧ type.Contains read := by
  rw [decode_literal literal, mapError_eq_ok_iff, Json.decode_integer_eq_ok_iff]

theorem rounds_ofInt (value : Int) :
    Binary.Rounds (value < 0) |(value : ℚ)| (.ofInt value : Double) :=
  Binary.rounds_ofInt (by decide) (by decide) value

/-- A literal in the range is read as what it says, and one out of the range is never rounded into
it, however long it is. -/
theorem decode_integer_literal (exact : type.isExact = true)
    (literal : Grammar.IntegerText text.toList value) :
    (type.Contains value → decode schema (.integer type) text = .ok (.integer value)) ∧
    (¬type.Contains value → ∃ number : Double,
      Binary.Rounds (value < 0) |(value : ℚ)| number ∧
      decode schema (.integer type) text =
        .error (.unfit (.numberOutOfRange type.name number))) := by
  constructor
  · intro contained
    have moderate := IntegerType.moderate_of_contains exact contained
    exact (decode_literal_eq_ok_iff literal).mpr
      ⟨Binary.value?_of_moderate moderate.le, contained⟩
  · intro outside
    refine ⟨.ofInt value, rounds_ofInt value, ?_⟩
    have never : ¬∃ rounded : Int,
        (Binary.ofInt value : Double).value? = some (rounded : ℚ) ∧ type.Contains rounded := by
      rintro ⟨rounded, read, contained⟩
      rw [← Binary.integer?_eq_some_iff] at read
      exact IntegerType.not_contains_of_ofInt exact outside read contained
    rw [decode_literal literal, Json.decode_integer_eq_error never]
    rfl

theorem decode_integer_literal_beyond :
    IntegerType.isExact ⟨true, .w8⟩ = true ∧ Grammar.IntegerText "-0128".toList (-128) ∧
    Grammar.IntegerText "0128".toList 128 ∧
    decode [] (.integer ⟨true, .w8⟩) "-0128" = .ok (.integer (-128)) ∧
    ∃ number : Double, Binary.Rounds (128 < (0 : Int)) |((128 : Int) : ℚ)| number ∧
      decode [] (.integer ⟨true, .w8⟩) "0128" =
        .error (.unfit (.numberOutOfRange "i8" number)) := by
  have digits_ok : Grammar.Digits "0128".toList := by
    simp [Grammar.Digits]
  have least : Grammar.IntegerText "-0128".toList (-128) := .mk .minus digits_ok
  have beyond : Grammar.IntegerText "0128".toList 128 := .mk .absent digits_ok
  exact ⟨rfl, least, beyond, (decode_integer_literal rfl least).1 (by decide),
    (decode_integer_literal rfl beyond).2 (by decide)⟩

/-- A literal is read as the integer that the double nearest to it is. That is the literal's own
integer exactly when doubles have it, as they have all integers up to `2 ^ 53`. -/
theorem decode_nearest_literal (literal : Grammar.IntegerText text.toList value) :
    ∃ number : Double, Binary.Rounds (value < 0) |(value : ℚ)| number ∧
      (∀ read : Int, decode schema (.integer type) text = .ok (.integer read) ↔
        number.value? = some (read : ℚ) ∧ type.Contains read) ∧
      (∀ read : Int, decode schema (.integer type) text = .ok (.integer read) →
        (read = value ↔ ∃ other : Double, other.value? = some (value : ℚ))) ∧
      (value.natAbs ≤ 2 ^ 53 → ∃ other : Double, other.value? = some (value : ℚ)) := by
  refine ⟨.ofInt value, rounds_ofInt value, fun read => decode_literal_eq_ok_iff literal, ?_, ?_⟩
  · intro read decoded
    have rounded := ((decode_literal_eq_ok_iff literal).mp decoded).1
    constructor
    · rintro rfl
      exact ⟨_, rounded⟩
    · rintro ⟨other, held⟩
      rw [Binary.value?_ofInt held, Option.some.injEq] at rounded
      exact_mod_cast rounded.symm
  · exact fun moderate => ⟨_, Binary.value?_of_moderate moderate⟩

theorem decode_nearest_literal_least :
    Grammar.IntegerText "-9223372036854775809".toList (-9223372036854775809) ∧
    decode [] (.integer ⟨true, .w64⟩) "-9223372036854775809" =
      .ok (.integer (-9223372036854775808)) ∧
    ¬∃ other : Double, other.value? = some ((-9223372036854775809 : Int) : ℚ) := by
  have digits_ok : Grammar.Digits "9223372036854775809".toList := by
    simp [Grammar.Digits]
  have literal : Grammar.IntegerText "-9223372036854775809".toList (-9223372036854775809) :=
    .mk .minus digits_ok
  have rounded : (Binary.ofInt (-9223372036854775809) : Double).value? =
      some ((-9223372036854775808 : Int) : ℚ) :=
    Binary.integer?_eq_some_iff.mp (by decide +kernel)
  have decoded : decode [] (.integer ⟨true, .w64⟩) "-9223372036854775809" =
      .ok (.integer (-9223372036854775808)) :=
    (decode_literal_eq_ok_iff literal).mpr ⟨rounded, by decide⟩
  refine ⟨literal, decoded, fun held => ?_⟩
  obtain ⟨-, -, -, same, -⟩ := decode_nearest_literal literal
  exact absurd ((same _ decoded).mpr held) (by decide)

theorem decode_integer_rounded :
    Grammar.IntegerText "9007199254740993".toList 9007199254740993 ∧
    decode [] (.integer ⟨true, .w64⟩) "9007199254740993" = .ok (.integer 9007199254740992) ∧
    (9007199254740992 : Int) ≠ 9007199254740993 := by
  have digits_ok : Grammar.Digits "9007199254740993".toList := by
    simp [Grammar.Digits]
  have literal : Grammar.IntegerText "9007199254740993".toList 9007199254740993 :=
    .mk .absent digits_ok
  refine ⟨literal, (decode_literal_eq_ok_iff literal).mpr ⟨?_, by decide⟩, by decide⟩
  rw [← Binary.integer?_eq_some_iff]
  decide +kernel

end CombinatorJson
