import CombinatorJson.Proofs.Grammar.Strict
import CombinatorJson.Proofs.Grammar.Written

set_option autoImplicit false

namespace CombinatorJson

namespace Grammar

theorem strictWhole_of_text {decimal : Decimal} (normal : decimal.Normal)
    {whole fraction : List Char} (shown : decimal.text = whole ++ fraction)
    (whole_ok : Digits whole) : StrictWhole whole := by
  refine ⟨whole_ok, fun zero => ?_⟩
  obtain ⟨c, rest, rfl, -⟩ := whole_ok.head
  obtain rfl : c = '0' := by simpa using zero
  have rest_ok : ∀ d ∈ rest, d.isDigit = true := (List.forall_mem_cons.mp whole_ok.2).2
  have begun : decimal.text.head? = some '0' := by rw [shown]; rfl
  rcases Decimal.text_of_zero_head normal begun with alone | ⟨after, pointed⟩
  · rw [shown] at alone
    simp only [List.cons_append, List.cons.injEq, List.append_eq_nil_iff, true_and] at alone
    rw [alone.1]
  · -- The point that follows the zero is no digit, so the whole part is over.
    rw [shown, List.cons_append, List.cons.injEq] at pointed
    cases rest with
    | nil => rfl
    | cons d rest =>
      obtain rfl : d = '.' := (List.cons.inj pointed.2).1
      have digit := rest_ok '.' List.mem_cons_self
      contradiction

theorem strictNumber_text {sign : List Char} {negative : Bool} (sign_ok : SignText sign negative)
    {decimal : Decimal} (normal : decimal.Normal) : StrictNumber (sign ++ decimal.text) := by
  obtain ⟨whole, fraction, fractionDigits, shown, whole_ok, fraction_ok, -⟩ :=
    positional_text decimal
  have strict_ok := strictWhole_of_text normal shown whole_ok
  have number_ok := StrictNumber.mk sign_ok strict_ok fraction_ok .absent
  rwa [List.append_nil, List.append_assoc, ← shown] at number_ok

theorem strictNumber_overflow {sign : List Char} {negative : Bool}
    (sign_ok : SignText sign negative) : StrictNumber (sign ++ "1e999".toList) := by
  have one : StrictWhole ['1'] := ⟨⟨by simp, by simp⟩, by simp⟩
  have nines : Digits ['9', '9', '9'] := ⟨by simp, by simp⟩
  have mark_ok : 'e' ∈ ['e', 'E'] := by simp
  have number_ok := StrictNumber.mk sign_ok one .absent (.present mark_ok .absent nines)
  rw [List.append_nil, List.append_assoc] at number_ok
  exact number_ok

variable {space : List Char → Prop}

theorem strictValue_numberChars (value : Double) : StrictValue space (Json.numberChars value) := by
  cases value with
  | nan => exact .null
  | signed negative rank =>
    by_cases infinite : rank.val = Format.binary64.infinityRank
    · cases negative
      · simpa [Json.numberChars, infinite] using StrictValue.number (strictNumber_overflow .absent)
      · simpa [Json.numberChars, infinite] using StrictValue.number (strictNumber_overflow .minus)
    · have normal : (Format.binary64.shortestDecimal rank).Normal :=
        Format.shortestDecimal_normal (by decide) (Nat.le_of_lt_succ rank.isLt)
      cases negative
      · simpa [Json.numberChars, Binary.text, infinite] using
          StrictValue.number (strictNumber_text .absent normal)
      · simpa [Json.numberChars, Binary.text, infinite] using
          StrictValue.number (strictNumber_text .minus normal)

theorem strictPiece_control {c : Char} (control : c.toNat < 0x20) :
    StrictPiece
      ['\\', 'u', '0', '0', Nat.digitChar (c.toNat / 16), Nat.digitChar (c.toNat % 16)] := by
  have zero : ('0', 0) ∈ hexDigits := by decide
  have high := hexDigits_digitChar (c.toNat / 16) (by omega)
  have low := hexDigits_digitChar (c.toNat % 16) (by omega)
  refine .unicode rfl ?_
  simp only [AllHex, List.forall_mem_cons]
  exact ⟨⟨_, zero⟩, ⟨_, zero⟩, ⟨_, high⟩, ⟨_, low⟩, by simp⟩

theorem strictPiece_escapeChar (c : Char) : StrictPiece (Json.escapeChar c) := by
  unfold Json.escapeChar
  split
  case h_8 no_quote no_backslash _ _ _ _ _ =>
    split
    · next control => exact strictPiece_control control
    · next visible => exact .plain (by omega) no_quote no_backslash
  all_goals exact .simple (simpleEscapes_of_contains (by decide))

theorem strictString_stringChars (value : String) : StrictString (Json.stringChars value) := by
  have pieces_ok : ∀ piece ∈ value.toList.map Json.escapeChar, StrictPiece piece := by
    intro piece known
    obtain ⟨c, -, rfl⟩ := List.mem_map.mp known
    exact strictPiece_escapeChar c
  have string_ok := StrictString.mk pieces_ok
  rwa [← List.flatMap_def, ← List.cons_append] at string_ok

def Padded.bare (body : List Char) : Padded :=
  ⟨[], body, []⟩

theorem Padded.text_bare (body : List Char) : (Padded.bare body).text = body := by
  simp [Padded.text, Padded.bare]

theorem strictValue_array (none_ok : space []) {items : List (List Char)}
    (items_ok : ∀ item ∈ items, StrictValue space item) :
    StrictValue space ('[' :: ([','].intercalate items ++ [']'])) := by
  by_cases empty : items = []
  · subst empty
    exact .emptyArray none_ok
  have nonempty : items.map Padded.bare ≠ [] := by simpa using empty
  have spaces_ok : ∀ item ∈ items.map Padded.bare, item.Within space :=
    List.forall_mem_map.mpr fun _ _ => ⟨none_ok, none_ok⟩
  have array_ok := StrictValue.array nonempty spaces_ok (List.forall_mem_map.mpr items_ok)
  simpa [Padded.text_bare, Function.comp_def] using array_ok

theorem strictValue_object {α : Type} (none_ok : space []) {members : List α}
    {key value : α → List Char} (keys_ok : ∀ member ∈ members, StrictString (key member))
    (values_ok : ∀ member ∈ members, StrictValue space (value member)) :
    StrictValue space
      ('{' :: ([','].intercalate (members.map fun member => key member ++ ':' :: value member) ++
        ['}'])) := by
  by_cases empty : members = []
  · subst empty
    exact .emptyObject none_ok
  have nonempty : (members.map fun member =>
      (Padded.bare (key member), Padded.bare (value member))) ≠ [] := by
    simpa using empty
  have object_ok := StrictValue.object nonempty
    (List.forall_mem_map.mpr fun _ _ => ⟨⟨none_ok, none_ok⟩, ⟨none_ok, none_ok⟩⟩)
    (List.forall_mem_map.mpr keys_ok) (List.forall_mem_map.mpr values_ok)
  simpa [memberText, Padded.text_bare, Function.comp_def] using object_ok

theorem strictValue_chars (none_ok : space []) (json : Json) : StrictValue space json.chars := by
  induction json using Json.inductionOn with
  | null => exact .null
  | bool value =>
    cases value
    · exact .false
    · exact .true
  | number value => exact strictValue_numberChars value
  | string value => exact .string (strictString_stringChars value)
  | array items ih =>
    rw [Json.chars, Json.itemChars_eq_map]
    exact strictValue_array none_ok (List.forall_mem_map.mpr ih)
  | object members ih =>
    rw [Json.chars, Json.memberChars_eq_map]
    exact strictValue_object none_ok (fun member _ => strictString_stringChars member.1) ih

theorem strictDocument_text (space : List Char → Prop) (none_ok : space []) (json : Json) :
    StrictDocument space json.text.toList := by
  refine ⟨.bare json.chars, ?_, ⟨none_ok, none_ok⟩, strictValue_chars none_ok json⟩
  rw [Json.text, String.toList_ofList, Padded.text_bare]

end Grammar

namespace Json

open CombinatorJson.Grammar

theorem visible_text (json : Json) : ∀ c ∈ json.text.toList, 0x20 ≤ c.toNat := by
  have spaces (gap : List Char) (empty : gap = []) : ∀ c ∈ gap, 0x20 ≤ c.toNat := by simp [empty]
  exact (strictDocument_text (· = []) rfl json).forall_mem spaces fun _ visible => visible

theorem parse_of_strictDocument {text : String}
    (document_ok : StrictDocument IsWhitespace text.toList) : ∃ value, parse text = .ok value := by
  obtain ⟨padded, same, ⟨before_ok, after_ok⟩, strict_ok⟩ := document_ok
  obtain ⟨value, value_ok⟩ := strict_ok.valueText
  exact ⟨value, parse_of_documentText (same ▸ .mk before_ok value_ok after_ok)⟩

theorem parse_control :
    parse "\"\x01\"" = .ok (.string "\x01") ∧
      ¬StrictDocument IsWhitespace "\"\x01\"".toList := by
  constructor
  · rfl
  intro document_ok
  have all : ∀ c ∈ "\"\x01\"".toList, 0x20 ≤ c.toNat ∨ c ∈ [' ', '\t', '\n', '\r'] :=
    document_ok.forall_mem (fun _ gap_ok c known => .inr (gap_ok c known)) fun _ => .inl
  exact absurd (all '\x01' (by decide)) (by decide)

/-- Written text keeps to the strict grammar without any white space, and control characters stand
nowhere in it. The parser reads all that the strict grammar allows, and more. -/
theorem text_strict (json : Json) :
    StrictDocument (· = []) json.text.toList ∧
      (∀ c ∈ json.text.toList, 0x20 ≤ c.toNat) ∧
      (∀ text : String, StrictDocument IsWhitespace text.toList → ∃ value, parse text = .ok value) ∧
      ∃ text value, parse text = .ok value ∧ ¬StrictDocument IsWhitespace text.toList :=
  ⟨strictDocument_text (· = []) rfl json, visible_text json, fun _ => parse_of_strictDocument,
    _, _, parse_control⟩

end Json

end CombinatorJson
