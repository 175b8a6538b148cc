import CombinatorJson.Proofs.Grammar.Document

set_option autoImplicit false

namespace CombinatorJson

namespace Grammar

variable {text : List Char} {contexts : List String}

theorem digits_zero : Digits ['0'] :=
  ⟨by simp, by simp⟩

theorem BrokenNumber.completes (number_ok : BrokenNumber text) :
    ∃ more numeral, NumberText (text ++ more) numeral := by
  cases number_ok with
  | sign => exact ⟨['0'], _, .mk .minus digits_zero .absent .absent⟩
  | point sign_ok whole_ok =>
    have completed := NumberText.mk sign_ok whole_ok (.present digits_zero) .absent
    exact ⟨['0'], _, by simpa using completed⟩
  | exponent sign_ok whole_ok fraction_ok mark_ok exponentSign_ok =>
    have completed := NumberText.mk sign_ok whole_ok fraction_ok
      (.present mark_ok exponentSign_ok digits_zero)
    exact ⟨['0'], _, by simpa using completed⟩

theorem quoted {body : List Char} {pieces : List Fragment} (pieces_ok : PiecesText body pieces)
    {piece : Fragment} {last : List Char} (last_ok : PieceText last piece) :
    StringText ('"' :: (body ++ last ++ ['"'])) (String.ofList (meaning (pieces ++ [piece]))) :=
  .mk (pieces_ok.snoc last_ok)

theorem unicode_completes {digits : List Char}
    (digits_ok : ∀ c ∈ digits, ∃ value, (c, value) ∈ hexDigits) (few : digits.length < 4) :
    ∃ more piece, PieceText ('\\' :: 'u' :: (digits ++ more)) piece := by
  -- Zeros fill the escape up to its four digits.
  have zero : ('0', 0) ∈ hexDigits := by decide
  match digits with
  | [] => exact ⟨['0', '0', '0', '0'], _, .unicode zero zero zero zero⟩
  | [a] =>
    obtain ⟨i, first⟩ := digits_ok a (by simp)
    exact ⟨['0', '0', '0'], _, .unicode first zero zero zero⟩
  | [a, b] =>
    obtain ⟨i, first⟩ := digits_ok a (by simp)
    obtain ⟨j, second⟩ := digits_ok b (by simp)
    exact ⟨['0', '0'], _, .unicode first second zero zero⟩
  | [a, b, c] =>
    obtain ⟨i, first⟩ := digits_ok a (by simp)
    obtain ⟨j, second⟩ := digits_ok b (by simp)
    obtain ⟨k, third⟩ := digits_ok c (by simp)
    exact ⟨['0'], _, .unicode first second third zero⟩
  | _ :: _ :: _ :: _ :: _ =>
    simp only [List.length_cons] at few
    omega

theorem BrokenString.completes (string_ok : BrokenString text) :
    ∃ more value, StringText (text ++ more) value := by
  cases string_ok with
  | body pieces_ok => exact ⟨['"'], _, .mk pieces_ok⟩
  | escape pieces_ok =>
    have quote : PieceText ['\\', '"'] (.char '"') := .simple (by decide)
    have completed := quoted pieces_ok quote
    exact ⟨['"', '"'], _, by simpa using completed⟩
  | unicode pieces_ok digits_ok few =>
    obtain ⟨more, piece, piece_ok⟩ := unicode_completes digits_ok few
    have completed := quoted pieces_ok piece_ok
    exact ⟨more ++ ['"'], _, by simpa using completed⟩

theorem BrokenKeyword.completes (keyword_ok : BrokenKeyword text) :
    ∃ more value, ValueText (text ++ more) value := by
  obtain @⟨keyword, _, more, c, known, split⟩ := keyword_ok
  simp only [List.mem_cons, List.not_mem_nil, or_false] at known
  rcases known with rfl | rfl | rfl
  · exact ⟨c :: more, .null, split ▸ ValueText.null⟩
  · exact ⟨c :: more, .bool true, split ▸ ValueText.true⟩
  · exact ⟨c :: more, .bool false, split ▸ ValueText.false⟩

theorem ItemText.of_value {value : Json} (value_ok : ValueText text value) :
    ItemText text value := by
  simpa using ItemText.mk value_ok .nil

theorem ItemsText.separated {text : List Char} {items : List Json} :
    ItemsText text items → Separated ItemText text items
  | .last item_ok => .last item_ok
  | .more item_ok space_ok rest_ok => .more item_ok space_ok rest_ok.separated

theorem PairsText.separated {text : List Char} {pairs : List (String × Json)} :
    PairsText text pairs → Separated PairText text pairs
  | .last pair_ok => .last pair_ok
  | .more pair_ok space_ok rest_ok => .more pair_ok space_ok rest_ok.separated

theorem pairText_of_key {keyText before after : List Char} {key : String} {value : Json}
    (key_ok : StringText keyText key) (before_ok : IsWhitespace before)
    (after_ok : IsWhitespace after) (value_ok : ValueText text value) :
    PairText (keyText ++ before ++ ':' :: (after ++ text)) (key, value) :=
  .mk key_ok before_ok after_ok (.of_value value_ok)

mutual

theorem BrokenValue.completes {text : List Char} {contexts : List String} :
    BrokenValue text contexts → ∃ more value, ValueText (text ++ more) value
  | .start => ⟨_, _, .null⟩
  | .keyword keyword_ok => keyword_ok.completes
  | .number number_ok => by
    obtain ⟨more, numeral, completed⟩ := number_ok.completes
    exact ⟨more, _, .number completed⟩
  | .string string_ok => by
    obtain ⟨more, value, completed⟩ := string_ok.completes
    exact ⟨more, _, .string completed⟩
  | .array space_ok items_ok => by
    obtain ⟨more, items, completed⟩ := items_ok.completes
    have closed := ValueText.array space_ok completed
    exact ⟨more ++ [']'], _, by simpa using closed⟩
  | .object space_ok pairs_ok => by
    obtain ⟨more, pairs, completed⟩ := pairs_ok.completes
    have closed := ValueText.object space_ok completed (Members.merges_ofPairs pairs)
    exact ⟨more ++ ['}'], _, by simpa using closed⟩

theorem BrokenItems.completes {text : List Char} {contexts : List String} :
    BrokenItems text contexts → ∃ more items, ItemsText (text ++ more) items
  | .none => ⟨_, _, .last (.of_value .null)⟩
  | .first value_ok _ => by
    obtain ⟨more, value, completed⟩ := value_ok.completes
    exact ⟨more, _, .last (.of_value completed)⟩
  | .ended items_ok => ⟨[], _, by simpa using items_ok⟩
  | .next items_ok space_ok value_ok => by
    obtain ⟨more, value, completed⟩ := value_ok.completes
    have longer := items_ok.separated.snoc space_ok (.of_value completed)
    exact ⟨more, _, itemsText_of_separated (by simpa using longer)⟩

theorem BrokenPair.completes {text : List Char} {contexts : List String} :
    BrokenPair text contexts → ∃ more pair, PairText (text ++ more) pair
  | .start => ⟨_, _, pairText_of_key (.mk .nil) .nil .nil .null⟩
  | .key key_ok => by
    obtain ⟨more, key, completed⟩ := key_ok.completes
    have valued := pairText_of_key completed .nil .nil .null
    exact ⟨more ++ ':' :: "null".toList, _, by simpa using valued⟩
  | .colon key_ok before_ok =>
    ⟨':' :: "null".toList, _, pairText_of_key key_ok before_ok .nil .null⟩
  | .value key_ok before_ok after_ok value_ok => by
    obtain ⟨more, value, completed⟩ := value_ok.completes
    have valued := pairText_of_key key_ok before_ok after_ok completed
    exact ⟨more, _, by simpa using valued⟩

theorem BrokenPairs.completes {text : List Char} {contexts : List String} :
    BrokenPairs text contexts → ∃ more pairs, PairsText (text ++ more) pairs
  | .none => ⟨_, _, .last (pairText_of_key (.mk .nil) .nil .nil .null)⟩
  | .first pair_ok _ => by
    obtain ⟨more, pair, completed⟩ := pair_ok.completes
    exact ⟨more, _, .last completed⟩
  | .ended pairs_ok => ⟨[], _, by simpa using pairs_ok⟩
  | .next pairs_ok space_ok pair_ok => by
    obtain ⟨more, pair, completed⟩ := pair_ok.completes
    have longer := pairs_ok.separated.snoc space_ok completed
    exact ⟨more, _, pairsText_of_separated (by simpa using longer)⟩

end

theorem BrokenDocument.completes {message : String} (document_ok : BrokenDocument text contexts message) :
    ∃ more value, DocumentText (text ++ more) value := by
  cases document_ok with
  | value before_ok value_ok =>
    obtain ⟨more, value, completed⟩ := value_ok.completes
    have document_ok := DocumentText.mk before_ok completed .nil
    exact ⟨more, value, by simpa using document_ok⟩
  | trailing document_ok => exact ⟨[], _, by simpa using document_ok⟩

end Grammar

namespace Json

open CombinatorJson.Grammar CombinatorJson.Parser CombinatorJson.Runner

/-- A reader that has stopped before a character stops there in every text that goes on so, however
deep the brackets of that text nest. -/
theorem documentReply?_of_same_beginning {text front rest : List Char} {c : Char}
    {contexts : List String} {message : String} {reply : Reply Json}
    (broke : (document.run rules (depthBound text)).Breaks front (some c) contexts message)
    (replied : documentReply? (front ++ c :: rest) = some reply) :
    reply = .fail ((Cursor.start 0 (front ++ c :: rest)).advance front.length) contexts message := by
  have failed := broke (Cursor.start 0 (front ++ c :: rest)) (c :: rest) rfl rfl
  -- The two texts bound the depth differently; both runs agree with one that is deep enough for both.
  have deeper := Nat.le_max_left (depthBound text) (depthBound (front ++ c :: rest))
  have deeper' := Nat.le_max_right (depthBound text) (depthBound (front ++ c :: rest))
  have first := run_within rules deeper document _ _ failed
  have second := run_within rules deeper' document _ _ replied
  exact Option.some.inj (second.symm.trans first)

theorem parse_rejects {text front rest : List Char} {c : Char} {contexts : List String}
    {message : String} {longer : String}
    (broke : (document.run rules (depthBound text)).Breaks front (some c) contexts message)
    (split : longer.toList = front ++ c :: rest) : ∃ error, parse longer = .error error := by
  rcases documentReply?_cases longer.toList with
    ⟨value, -, replied⟩ | ⟨front', rest', contexts', message', split', -, broke'⟩
  · rw [split] at replied
    cases documentReply?_of_same_beginning broke replied
  · exact ⟨_, parse_of_breaks split' broke'⟩

/-- A failure lies exactly where the longest beginning that some document shares with the text
ends. -/
theorem parse_offset_viable {text : String} {error : SyntaxError}
    (failed : parse text = .error error) :
    ∃ front rest, text.toList = front ++ rest ∧ error.offset = utf8Length front ∧
      (∃ more value, parse (String.ofList (front ++ more)) = .ok value) ∧
      ∀ c rest', rest = c :: rest' → ∀ more value,
        parse (String.ofList (front ++ c :: more)) ≠ .ok value := by
  rcases documentReply?_cases text.toList with
    ⟨value, document_ok, -⟩ | ⟨front, rest, contexts, message, split, broken, broke⟩
  · rw [parse_of_documentText document_ok] at failed
    contradiction
  · have same := (parse_of_breaks split broke).symm.trans failed
    obtain ⟨more, value, completed⟩ := broken.completes
    refine ⟨front, rest, split, ?_, ⟨more, value, ?_⟩, ?_⟩
    · cases same
      have ahead : (Cursor.start 0 text.toList).ahead = front ++ rest := split
      have offset := Cursor.offset_advance_length ahead
      simpa [SyntaxError.ofCursor, Cursor.start] using offset
    · apply parse_of_documentText
      simpa using completed
    · -- The break was decided by the character after it, so no other rest is accepted.
      rintro c rest' rfl more value accepted
      obtain ⟨error', rejected⟩ := parse_rejects broke (String.toList_ofList)
      rw [rejected] at accepted
      contradiction

theorem parse_offset_trailing_comma :
    ∃ error, parse "[1,]" = .error error ∧ ∃ front rest, "[1,]".toList = front ++ rest ∧
      error.offset = utf8Length front ∧
      (∃ more value, parse (String.ofList (front ++ more)) = .ok value) ∧
      ∀ c rest', rest = c :: rest' → ∀ more value,
        parse (String.ofList (front ++ c :: more)) ≠ .ok value :=
  ⟨_, rfl, parse_offset_viable rfl⟩

end Json

end CombinatorJson
