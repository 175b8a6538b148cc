import CombinatorJson.Proofs.Grammar.Tokens
import CombinatorJson.Proofs.Grammar.Viable
import CombinatorJson.Proofs.Numeric.Decimal

set_option autoImplicit false

namespace CombinatorJson

namespace Grammar

variable {text : List Char}

theorem digits_toDigits (value : Nat) : Digits (Nat.toDigits 10 value) :=
  ⟨Nat.toDigits_ne_nil, fun _ => Nat.isDigit_of_mem_toDigits (by decide) (by decide)⟩

theorem digits_replicate (count : Nat) : ∀ c ∈ List.replicate count '0', c.isDigit = true := by
  intro c member
  rw [List.eq_of_mem_replicate member]
  decide

theorem decimalValue_toDigits (value : Nat) : decimalValue (Nat.toDigits 10 value) = value :=
  Nat.ofDigitChars_ten_toDigits

theorem decimalValue_replicate_append (count : Nat) (digits : List Char) :
    decimalValue (List.replicate count '0' ++ digits) = decimalValue digits := by
  simp [decimalValue, Nat.ofDigitChars_append, Nat.ofDigitChars_replicate_zero]

theorem decimalValue_append_replicate (count : Nat) (digits : List Char) :
    decimalValue (digits ++ List.replicate count '0') = decimalValue digits * 10 ^ count := by
  simp [decimalValue, Nat.ofDigitChars_append, Nat.ofDigitChars_replicate_zero, Nat.mul_comm]

def Positional (text : List Char) (decimal : Decimal) : Prop :=
  ∃ whole fraction fractionDigits, text = whole ++ fraction ∧ Digits whole ∧
    FractionText fraction fractionDigits ∧
    Decimal.Same ⟨decimalValue (whole ++ fractionDigits), 0 - fractionDigits.length⟩ decimal

section

variable {digits power : Nat}

theorem positional_whole (digits power : Nat) :
    Positional (Nat.toDigits 10 digits ++ List.replicate power '0') ⟨digits, power⟩ := by
  obtain ⟨nonempty, shown_ok⟩ := digits_toDigits digits
  have whole_ok : Digits (Nat.toDigits 10 digits ++ List.replicate power '0') := by
    refine ⟨by simp [nonempty], fun c member => ?_⟩
    exact (List.mem_append.mp member).elim (shown_ok c) (digits_replicate power c)
  refine ⟨_, [], [], (List.append_nil _).symm, whole_ok, .absent, ?_⟩
  simp [Decimal.Same, Decimal.numerator, Decimal.denominator, decimalValue_append_replicate,
    decimalValue_toDigits]

theorem same_of_places {whole fractionDigits : List Char}
    (value : decimalValue (whole ++ fractionDigits) = digits)
    (places : fractionDigits.length = power + 1) :
    Decimal.Same ⟨decimalValue (whole ++ fractionDigits), 0 - fractionDigits.length⟩
      ⟨digits, .negSucc power⟩ := by
  have exponent : 0 - ((power + 1 : Nat) : Int) = .negSucc power := by omega
  rw [value, places, exponent, Decimal.Same]

theorem positional_between {front : Nat} (front_ok : 0 < front)
    (places : front + (power + 1) = (Nat.toDigits 10 digits).length) :
    Positional ((Nat.toDigits 10 digits).take front ++ '.' :: (Nat.toDigits 10 digits).drop front)
      ⟨digits, .negSucc power⟩ := by
  obtain ⟨-, shown_ok⟩ := digits_toDigits digits
  have length : ((Nat.toDigits 10 digits).drop front).length = power + 1 := by
    rw [List.length_drop]
    omega
  have whole_ok : Digits ((Nat.toDigits 10 digits).take front) := by
    refine ⟨?_, fun c member => shown_ok c (List.mem_of_mem_take member)⟩
    exact List.ne_nil_of_length_pos (by rw [List.length_take]; omega)
  have fraction_ok : Digits ((Nat.toDigits 10 digits).drop front) := by
    refine ⟨?_, fun c member => shown_ok c (List.mem_of_mem_drop member)⟩
    exact List.ne_nil_of_length_pos (by omega)
  refine ⟨_, _, _, rfl, whole_ok, .present fraction_ok, same_of_places ?_ length⟩
  rw [List.take_append_drop, decimalValue_toDigits]

theorem positional_fraction {zeros : Nat}
    (places : zeros + (Nat.toDigits 10 digits).length = power + 1) :
    Positional ('0' :: '.' :: (List.replicate zeros '0' ++ Nat.toDigits 10 digits))
      ⟨digits, .negSucc power⟩ := by
  obtain ⟨nonempty, shown_ok⟩ := digits_toDigits digits
  have length : (List.replicate zeros '0' ++ Nat.toDigits 10 digits).length = power + 1 := by
    rw [List.length_append, List.length_replicate, places]
  have fraction_ok : Digits (List.replicate zeros '0' ++ Nat.toDigits 10 digits) := by
    refine ⟨by simp [nonempty], fun c member => ?_⟩
    exact (List.mem_append.mp member).elim (digits_replicate zeros c) (shown_ok c)
  refine ⟨['0'], _, _, rfl, digits_zero, .present fraction_ok, same_of_places ?_ length⟩
  rw [List.singleton_append, ← List.cons_append, ← List.replicate_succ,
    decimalValue_replicate_append, decimalValue_toDigits]

end

theorem positional_text (decimal : Decimal) : Positional decimal.text decimal := by
  obtain ⟨digits, exponent⟩ := decimal
  cases exponent with
  | ofNat power => exact positional_whole digits power
  | negSucc power =>
    by_cases few : power + 1 < (Nat.toDigits 10 digits).length
    · -- The point stands between the digits.
      have places : (Nat.toDigits 10 digits).length - (power + 1) + (power + 1) =
          (Nat.toDigits 10 digits).length := by omega
      simpa [Decimal.text, few] using positional_between (by omega) places
    · -- Zeros fill the places before the digits.
      have places : power + 1 - (Nat.toDigits 10 digits).length +
          (Nat.toDigits 10 digits).length = power + 1 := by omega
      simpa [Decimal.text, few] using positional_fraction places

theorem numberText_text (negative : Bool) {rank : Fin (Format.binary64.infinityRank + 1)}
    (finite : rank.val ≠ Format.binary64.infinityRank) :
    ∃ numeral, NumberText (Binary.text (.signed negative rank)) numeral ∧
      numeral.toBinary = (.signed negative rank : Double) := by
  obtain ⟨whole, fraction, fractionDigits, shown, whole_ok, fraction_ok, same⟩ :=
    positional_text (Format.binary64.shortestDecimal rank)
  have sign_ok : SignText (if negative then ['-'] else []) negative := by
    cases negative
    · exact .absent
    · exact .minus
  have number_ok := NumberText.mk sign_ok whole_ok fraction_ok .absent
  have written : (if negative then ['-'] else []) ++ whole ++ fraction ++ [] =
      Binary.text (.signed negative rank) := by
    cases negative <;> simp [Binary.text, finite, shown]
  rw [written] at number_ok
  exact ⟨_, number_ok, Binary.ofDecimal_shortestDecimal (by decide) negative rank same⟩

theorem numberText_overflow {sign : List Char} {negative : Bool} (sign_ok : SignText sign negative) :
    NumberText (sign ++ "1e999".toList) ⟨negative, 1, 999⟩ := by
  have one : Digits ['1'] := ⟨by simp, by simp⟩
  have nines : Digits ['9', '9', '9'] := ⟨by simp, by simp⟩
  have mark_ok : 'e' ∈ ['e', 'E'] := by simp
  have number_ok := NumberText.mk sign_ok one .absent (.present mark_ok .absent nines)
  rw [List.append_nil, List.append_assoc] at number_ok
  exact number_ok

theorem valueText_overflow {sign : List Char} {negative : Bool} (sign_ok : SignText sign negative) :
    ValueText (sign ++ "1e999".toList) (.number (.infinity negative)) := by
  have value : (Binary.ofDecimal negative ⟨1, 999⟩ : Double) = .infinity negative :=
    Binary.ofDecimal_eq_infinity (by decide) negative Nat.one_ne_zero (by decide)
  rw [← value]
  exact .number (numberText_overflow sign_ok)

theorem valueText_numberChars (value : Double) :
    ValueText (Json.numberChars value) (if value = .nan then .null else .number value) := by
  cases value with
  | nan => exact .null
  | signed negative rank =>
    rw [if_neg (by simp)]
    by_cases infinite : rank.val = Format.binary64.infinityRank
    · have same : rank = Fin.last _ := Fin.ext infinite
      subst same
      cases negative
      · exact valueText_overflow .absent
      · exact valueText_overflow .minus
    · obtain ⟨numeral, number_ok, value_eq⟩ := numberText_text negative infinite
      have written : Json.numberChars (.signed negative rank) = Binary.text (.signed negative rank) :=
        if_neg infinite
      rw [written, ← value_eq]
      exact .number (value_eq ▸ number_ok)

theorem hexDigits_digitChar : ∀ value < 16, (Nat.digitChar value, value) ∈ hexDigits := by
  decide

theorem meaning_unit {unit : Nat} (plain : Utf16.isHighSurrogate unit = false)
    (rest : List Fragment) : meaning (.unit unit :: rest) = Utf16.single unit :: meaning rest := by
  cases rest with
  | nil => rfl
  | cons piece rest =>
    cases piece with
    | char c => rfl
    | unit low => simp [meaning, plain]

theorem pieceText_control {c : Char} (control : c.toNat < 0x20) :
    PieceText ['\\', 'u', '0', '0', Nat.digitChar (c.toNat / 16), Nat.digitChar (c.toNat % 16)]
        (.unit c.toNat) ∧
      ∀ rest, meaning (.unit c.toNat :: rest) = c :: meaning rest := by
  have value : 4096 * 0 + 256 * 0 + 16 * (c.toNat / 16) + c.toNat % 16 = c.toNat := by omega
  have zero : ('0', 0) ∈ hexDigits := by decide
  have piece_ok := PieceText.unicode zero zero (hexDigits_digitChar (c.toNat / 16) (by omega))
    (hexDigits_digitChar (c.toNat % 16) (by omega))
  rw [value] at piece_ok
  have no_high : Utf16.isHighSurrogate c.toNat = false := by
    simp [Utf16.isHighSurrogate]
    omega
  have no_low : Utf16.isLowSurrogate c.toNat = false := by
    simp [Utf16.isLowSurrogate]
    omega
  refine ⟨piece_ok, fun rest => ?_⟩
  rw [meaning_unit no_high, Utf16.single, no_high, no_low]
  simp

theorem pieceText_escapeChar (c : Char) :
    ∃ piece, PieceText (Json.escapeChar c) piece ∧
      ∀ rest, meaning (piece :: rest) = c :: meaning rest := by
  -- A written character is a piece of a literal, and stands for itself whatever follows it.
  unfold Json.escapeChar
  split
  case h_8 no_quote no_backslash _ _ _ _ _ =>
    split
    · next control => exact ⟨_, pieceText_control control⟩
    · exact ⟨.char c, .plain no_quote no_backslash, fun _ => rfl⟩
  all_goals exact ⟨_, .simple (by decide), fun _ => rfl⟩

theorem piecesText_flatMap (text : List Char) :
    ∃ pieces, PiecesText (text.flatMap Json.escapeChar) pieces ∧ meaning pieces = text := by
  induction text with
  | nil => exact ⟨[], .nil, rfl⟩
  | cons c text ih =>
    obtain ⟨piece, piece_ok, meant⟩ := pieceText_escapeChar c
    obtain ⟨pieces, pieces_ok, rest⟩ := ih
    refine ⟨piece :: pieces, .cons piece_ok pieces_ok, ?_⟩
    rw [meant, rest]

theorem stringText_stringChars (value : String) : StringText (Json.stringChars value) value := by
  obtain ⟨pieces, pieces_ok, meant⟩ := piecesText_flatMap value.toList
  have literal := StringText.mk pieces_ok
  rwa [meant, String.ofList_toList] at literal

theorem Spaced.split {token : List Char} {tokens : List (List Char)}
    (spaced : Spaced (token :: tokens) text) :
    ∃ space rest, text = space ++ (token ++ rest) ∧ IsWhitespace space ∧ Spaced tokens rest := by
  cases spaced with
  | cons space_ok rest_ok => exact ⟨_, _, rfl, space_ok, rest_ok⟩

theorem Spaced.whitespace (spaced : Spaced [] text) : IsWhitespace text := by
  cases spaced with
  | nil space_ok => exact space_ok

/-- Wherever the tokens stand in a text, they make up a part of the kind. -/
def Spells (part : List Char → Prop) (spelled : List (List Char)) : Prop :=
  ∀ (tokens : List (List Char)) (text : List Char), Spaced (spelled ++ tokens) text →
    ∃ space body rest, text = space ++ (body ++ rest) ∧ IsWhitespace space ∧ part body ∧
      Spaced tokens rest

/-- The same for parts that take the white space after them, up to the next token. -/
def SpellsUpTo (part : List Char → Prop) (spelled : List (List Char)) : Prop :=
  ∀ (token : List Char) (tokens : List (List Char)) (text : List Char),
    Spaced (spelled ++ token :: tokens) text →
    ∃ space body rest, text = space ++ (body ++ (token ++ rest)) ∧ IsWhitespace space ∧
      part body ∧ Spaced tokens rest

theorem spells_token {part : List Char → Prop} {token : List Char} (part_ok : part token) :
    Spells part [token] := by
  intro tokens text spaced
  obtain ⟨space, rest, split, space_ok, rest_ok⟩ := spaced.split
  exact ⟨space, token, rest, split, space_ok, part_ok, rest_ok⟩

theorem Spells.item {spelled : List (List Char)} {value : Json}
    (spells : Spells (ValueText · value) spelled) : SpellsUpTo (ItemText · value) spelled := by
  intro token tokens text spaced
  obtain ⟨space, body, following, rfl, space_ok, value_ok, following_ok⟩ := spells _ _ spaced
  obtain ⟨after, rest, rfl, after_ok, rest_ok⟩ := following_ok.split
  exact ⟨space, body ++ after, rest, by simp, space_ok, .mk value_ok after_ok, rest_ok⟩

theorem Spells.pair {spelled : List (List Char)} {value : Json}
    (spells : Spells (ValueText · value) spelled) (key : String) :
    SpellsUpTo (PairText · (key, value)) (Json.stringChars key :: [':'] :: spelled) := by
  intro token tokens text spaced
  obtain ⟨space, keyed, rfl, space_ok, keyed_ok⟩ := spaced.split
  obtain ⟨before, valued, rfl, before_ok, valued_ok⟩ := keyed_ok.split
  obtain ⟨after, body, rest, rfl, after_ok, item_ok, rest_ok⟩ := spells.item _ _ _ valued_ok
  have pair_ok := PairText.mk (stringText_stringChars key) before_ok after_ok item_ok
  exact ⟨space, _, rest, by simp, space_ok, pair_ok, rest_ok⟩

theorem spells_separated {α β : Type} {part : List Char → β → Prop} {spell : α → List (List Char)}
    {denote : α → β} (first : α) (others : List α)
    (spells : ∀ x ∈ first :: others, SpellsUpTo (part · (denote x)) (spell x)) :
    SpellsUpTo (Separated part · ((first :: others).map denote))
      ([[',']].intercalate ((first :: others).map spell)) := by
  intro token tokens text spaced
  have here := spells first List.mem_cons_self
  induction others generalizing first text with
  | nil =>
    have alone : Spaced (spell first ++ token :: tokens) text := by simpa using spaced
    obtain ⟨space, body, rest, split, space_ok, part_ok, rest_ok⟩ := here _ _ _ alone
    exact ⟨space, body, rest, split, space_ok, .last part_ok, rest_ok⟩
  | cons second others ih =>
    have begun : Spaced (spell first ++ [','] ::
        ([[',']].intercalate ((second :: others).map spell) ++ token :: tokens)) text := by
      simpa [List.intercalate_cons_cons] using spaced
    obtain ⟨space, body, following, rfl, space_ok, part_ok, following_ok⟩ := here _ _ _ begun
    have later (x) (member : x ∈ second :: others) := spells x (List.mem_cons_of_mem first member)
    obtain ⟨after, tail, rest, rfl, after_ok, tail_ok, rest_ok⟩ :=
      ih second later following following_ok (later second List.mem_cons_self)
    refine ⟨space, body ++ ',' :: (after ++ tail), rest, by simp, space_ok, ?_, rest_ok⟩
    exact .more part_ok after_ok tail_ok

theorem spells_enclosed {opening closing : Char} {part whole : List Char → Prop}
    {spelled : List (List Char)} (spells : SpellsUpTo part spelled)
    (enclose : ∀ space body, IsWhitespace space → part body →
      whole (opening :: (space ++ body ++ [closing]))) :
    Spells whole ([opening] :: (spelled ++ [[closing]])) := by
  intro tokens text spaced
  -- White space after the opening bracket belongs to the container, not to a part of it.
  rw [List.cons_append, List.append_assoc] at spaced
  obtain ⟨space, opened, rfl, space_ok, opened_ok⟩ := spaced.split
  obtain ⟨inner, body, rest, rfl, inner_ok, part_ok, rest_ok⟩ := spells _ _ _ opened_ok
  exact ⟨space, _, rest, by simp, space_ok, enclose inner body inner_ok part_ok, rest_ok⟩

theorem spellsUpTo_nil : SpellsUpTo (· = []) [] := by
  intro token tokens text spaced
  obtain ⟨space, rest, split, space_ok, rest_ok⟩ := spaced.split
  exact ⟨space, [], rest, split, space_ok, rfl, rest_ok⟩

theorem spells_value (json : Json) (unique : json.UniqueKeys) :
    Spells (ValueText · json.withoutNaN) json.tokens := by
  induction json using Json.inductionOn with
  | null => exact spells_token .null
  | bool value =>
    cases value
    · exact spells_token .false
    · exact spells_token .true
  | number value => exact spells_token (valueText_numberChars value)
  | string value => exact spells_token (.string (stringText_stringChars value))
  | array items ih =>
    obtain _ | _ | _ | _ | items_ok := unique
    rw [Json.tokens, Json.itemTokens_eq_map, Json.withoutNaN, Json.itemsWithoutNaN_eq_map]
    cases items with
    | nil =>
      refine spells_enclosed spellsUpTo_nil ?_
      rintro space _ space_ok rfl
      simpa using .emptyArray space_ok
    | cons first others =>
      have spells (item) (known : item ∈ first :: others) := (ih item known (items_ok item known)).item
      refine spells_enclosed (spells_separated first others spells) ?_
      exact fun space body space_ok items_ok => .array space_ok (itemsText_of_separated items_ok)
  | object members ih =>
    obtain _ | _ | _ | _ | _ | ⟨unique, members_ok⟩ := unique
    rw [Json.tokens, Json.memberTokens_eq_map, Json.withoutNaN, Json.membersWithoutNaN_eq_map]
    cases members with
    | nil =>
      refine spells_enclosed spellsUpTo_nil ?_
      rintro space _ space_ok rfl
      simpa using .emptyObject space_ok
    | cons first others =>
      have spells (member) (known : member ∈ first :: others) :=
        (ih member known (members_ok member known)).pair member.1
      refine spells_enclosed (spells_separated first others spells) ?_
      intro space body space_ok pairs_ok
      have kept := Members.unique_map_values Json.withoutNaN unique
      exact .object space_ok (pairsText_of_separated pairs_ok) (Members.merges_of_unique kept)

theorem documentText_of_spaced {json : Json} (unique : json.UniqueKeys)
    (spaced : Spaced json.tokens text) : DocumentText text json.withoutNaN := by
  rw [← List.append_nil json.tokens] at spaced
  obtain ⟨before, body, after, rfl, before_ok, value_ok, after_ok⟩ :=
    spells_value json unique [] text spaced
  have document_ok := DocumentText.mk before_ok value_ok after_ok.whitespace
  rwa [List.append_assoc] at document_ok

end Grammar

namespace Json

open CombinatorJson.Grammar

/-- The tokens of a written tree, with any white space around them, are read as the tree with
`null` for each NaN. -/
theorem parse_spaced (json : Json) (unique : json.UniqueKeys) :
    json.text = String.ofList json.tokens.flatten ∧
      ∀ text : String, Spaced json.tokens text.toList → parse text = .ok json.withoutNaN := by
  constructor
  · rw [flatten_tokens, Json.text]
  · intro text spaced
    exact parse_of_documentText (documentText_of_spaced unique spaced)

theorem parse_spaced_object :
    parse "\x7b \"a\": [null\t]\x7d" = .ok (.object [("a", .array [.null])]) := by
  have inner : (array [.number .nan]).UniqueKeys := .array (by simpa using .number .nan)
  have unique : (object [("a", array [.number .nan])]).UniqueKeys :=
    .object (by simp [Members.keys]) (by simpa using inner)
  have none : IsWhitespace [] := .nil
  have blank : IsWhitespace [' '] := by simp [IsWhitespace]
  have tab : IsWhitespace ['\t'] := by simp [IsWhitespace]
  exact (parse_spaced _ unique).2 "\x7b \"a\": [null\t]\x7d"
    (.cons none (.cons blank (.cons none (.cons blank (.cons none (.cons tab (.cons none (.nil none))))))))

end Json

end CombinatorJson
