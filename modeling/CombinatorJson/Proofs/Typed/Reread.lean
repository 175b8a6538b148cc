import CombinatorJson.Proofs.Typed.Lasting
import CombinatorJson.Proofs.Typed.Options

set_option autoImplicit false

namespace CombinatorJson

variable {schema : Schema} {shape : Shape}

namespace Json

theorem numberChars_ne_null {value : Double} (real : value ≠ .nan) :
    numberChars value ≠ "null".toList := by
  intro same
  have number_ok := Grammar.valueText_numberChars value
  rw [if_neg real, same] at number_ok
  -- The parser gives one tree for a text, and for this one that is `null`.
  have none : Grammar.IsWhitespace [] := .nil
  have parsed : parse "null" = .ok (.number value) :=
    parse_of_documentText (.mk none number_ok none)
  have null : parse "null" = .ok .null := parse_of_documentText (.mk none .null none)
  cases null.symm.trans parsed

theorem text_eq_null {json : Json} (same : json.text = "null") :
    json = .null ∨ json = .number .nan := by
  have chars : json.chars = "null".toList := by
    simpa [text] using congrArg String.toList same
  cases json with
  | null => exact .inl rfl
  | number value =>
    by_cases missing : value = .nan
    · exact .inr (congrArg number missing)
    · exact absurd chars (numberChars_ne_null missing)
  | bool value => cases value <;> contradiction
  | _ => simp [Json.chars, stringChars] at chars

end Json

namespace Datum

variable {datum : Datum}

theorem Intact.encode_ne_null (intact : datum.Intact) (shown : datum.toJson ≠ .null) :
    encode datum ≠ "null" := by
  intro hidden
  rcases Json.text_eq_null hidden with null | missing
  · exact shown null
  · exact intact.toJson_ne_nan missing

theorem toJson_settled (shaped : HasShape schema shape datum) (hidden : datum.toJson = .null) :
    (datum.settled schema shape).toJson = .null := by
  induction shaped with
  | present _ ih => exact ih hidden
  | unit | json | absent => exact hidden
  | _ => contradiction

theorem intact_of_settled (shaped : HasShape schema shape datum)
    (intact : (datum.settled schema shape).Intact) : datum.Intact := by
  induction shaped with
  | present shaped ih =>
    cases intact with
    | present value_ok shown =>
      exact .present (ih value_ok) fun hidden => shown (toJson_settled shaped hidden)
  | list items_ok ih =>
    rw [settled, settledItems_eq_map, intact_list_iff, List.forall_mem_map] at intact
    exact .list fun value known => ih value known (intact value known)
  | @map order shape entries unique _ ih =>
    have unique' := Members.unique_map_values (settled schema shape) unique
    obtain ⟨kept, built⟩ := Json.exists_mapOfEntries order
      (entries.map fun entry => (entry.1, entry.2.settled schema shape))
    rw [settled, settledEntries_eq_map, built, intact_map_iff] at intact
    apply Intact.map
    intro entry known
    have listed := Json.mem_mapOfEntries unique' built _ (List.mem_map_of_mem known)
    exact ih entry known (intact _ listed)
  | record named fields_ok ih =>
    have sameLength := length_of_named named
    rw [settled, settledFields_eq_map (Nat.le_of_eq sameLength), intact_record_iff,
      List.forall_mem_map] at intact
    apply Intact.record
    rw [← forall_mem_zip_left sameLength]
    exact fun pair known => ih pair known (intact pair known)
  | _ => exact intact

end Datum

theorem decode_eq_ok_iff {text : String} {value : Datum} :
    decode schema shape text = .ok value ↔
      ∃ json, Json.parse text = .ok json ∧ json.decode schema shape = .ok value := by
  simp only [decode, bind_eq_ok_iff, mapError_eq_ok_iff]

/-- A value that was read from any text is read back from its own text, however the entries of its
sorted maps are listed there. No number is a NaN, and no option that holds something looks empty. -/
theorem decode_encode_of_decode {text : String} {value : Datum} (schema_ok : schema.IsEncodable)
    (shape_ok : shape.isEncodable = true) (read : decode schema shape text = .ok value) :
    decode schema shape (encode value) = .ok value ∧
      (∀ again, decode schema shape (encode value) = .ok again → encode again = encode value) ∧
      (∀ listed, HasShape schema shape listed → Datum.Same schema shape listed value →
        decode schema shape (encode listed) = .ok value) ∧
      (∀ held, value.HasPart (.present held) → encode held ≠ "null") ∧
      ∀ source json, Json.parse source = .ok json → json.NaNFree := by
  obtain ⟨json, parsed, decoded⟩ := decode_eq_ok_iff.mp read
  have plain := Json.plain_of_parse parsed
  obtain ⟨shaped, intact⟩ := Json.yields_of_plain schema_ok plain shape_ok value decoded
  have settled : value.settled schema shape = value :=
    Json.settled_of_decode json shape value decoded
  have listings (listed) (listed_ok : HasShape schema shape listed)
      (same : Datum.Same schema shape listed value) :
      decode schema shape (encode listed) = .ok value := by
    have same' : listed.settled schema shape = value := same.trans settled
    have intact' := Datum.intact_of_settled listed_ok (same' ▸ intact)
    rw [← same']
    exact (decode_encode_settled schema_ok shape_ok listed_ok).mpr intact'
  have back := listings value shaped rfl
  refine ⟨back, ?_, listings, ?_, ?_⟩
  · intro again read_again
    cases back.symm.trans read_again
    rfl
  · intro held within
    cases intact.part within with
    | present held_ok shown => exact held_ok.encode_ne_null shown
  · intro source json parsed
    exact (Json.plain_of_parse parsed).free

theorem decode_encode_of_decode_list :
    decode [] (.list (.option .double)) "[null, 1e999]" =
        .ok (.list [.absent, .present (.double (.infinity false))]) ∧
      decode [] (.list (.option .double))
          (encode (.list [.absent, .present (.double (.infinity false))])) =
        .ok (.list [.absent, .present (.double (.infinity false))]) := by
  have none : Grammar.IsWhitespace [] := .nil
  have blank : Grammar.IsWhitespace [' '] := by simp [Grammar.IsWhitespace]
  have null_ok : Grammar.ItemText "null".toList .null := .mk .null none
  have number_ok : Grammar.ItemText "1e999".toList (.number (.infinity false)) :=
    .mk (Grammar.valueText_overflow .absent) none
  have parsed : Json.parse "[null, 1e999]" = .ok (.array [.null, .number (.infinity false)]) :=
    Json.parse_of_documentText
      (.mk none (.array none (.more null_ok blank (.last number_ok))) none)
  have read : decode [] (.list (.option .double)) "[null, 1e999]" =
      .ok (.list [.absent, .present (.double (.infinity false))]) :=
    decode_eq_ok_iff.mpr ⟨_, parsed, rfl⟩
  have schema_ok : Schema.IsEncodable [] := ⟨by simp, by simp⟩
  exact ⟨read, (decode_encode_of_decode schema_ok rfl read).1⟩

end CombinatorJson
