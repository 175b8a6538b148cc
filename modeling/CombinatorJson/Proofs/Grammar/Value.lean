import CombinatorJson.Json.Grammar
import CombinatorJson.Proofs.Grammar.Container
import CombinatorJson.Proofs.Members

set_option autoImplicit false

namespace CombinatorJson

namespace Grammar

open CombinatorJson.Parser CombinatorJson.Runner

variable {N : Type → Type} {call : {β : Type} → N β → Runner β}
variable {whole text : List Char} {next : Option Char}

def separators : List Char :=
  [' ', '\t', '\n', '\r', ',', ':', ']', '}']

theorem not_separator_of_isDigit {c : Char} (digit : c.isDigit = true) : c ∉ separators := by
  have all : ∀ d ∈ separators, d.isDigit = false := by simp [separators]
  intro member
  rw [all c member] at digit
  contradiction

theorem NumberText.head {numeral : Numeral} (number_ok : NumberText text numeral) :
    ∃ c rest, text = c :: rest ∧ (c = '-' ∨ c.isDigit = true) := by
  obtain ⟨sign_ok, whole_ok, -, -⟩ := number_ok
  cases sign_ok with
  | minus => exact ⟨'-', _, rfl, .inl rfl⟩
  | absent =>
    obtain ⟨c, rest, rfl, digit⟩ := whole_ok.head
    exact ⟨c, _, rfl, .inr digit⟩

theorem StringText.head {value : String} (string_ok : StringText text value) :
    ∃ rest, text = '"' :: rest := by
  cases string_ok
  exact ⟨_, rfl⟩

theorem ValueText.head {value : Json} (value_ok : ValueText text value) :
    ∃ c rest, text = c :: rest ∧ c ∉ separators := by
  cases value_ok with
  | null => exact ⟨'n', _, rfl, by decide⟩
  | true => exact ⟨'t', _, rfl, by decide⟩
  | false => exact ⟨'f', _, rfl, by decide⟩
  | number number_ok =>
    obtain ⟨c, rest, rfl, rfl | digit⟩ := number_ok.head
    · exact ⟨'-', rest, rfl, by decide⟩
    · exact ⟨c, rest, rfl, not_separator_of_isDigit digit⟩
  | string string_ok =>
    obtain ⟨rest, rfl⟩ := string_ok.head
    exact ⟨'"', rest, rfl, by decide⟩
  | emptyArray | array => exact ⟨'[', _, rfl, by decide⟩
  | emptyObject | object => exact ⟨'\x7b', _, rfl, by decide⟩

theorem ValueText.nonempty {value : Json} (value_ok : ValueText text value) : text ≠ [] := by
  obtain ⟨c, rest, rfl, -⟩ := value_ok.head
  simp

theorem ItemText.nonempty {value : Json} (item_ok : ItemText text value) : text ≠ [] := by
  cases item_ok with
  | mk value_ok => simp [value_ok.nonempty]

theorem itemsText_of_separated {items : List Json} (items_ok : Separated ItemText text items) :
    ItemsText text items := by
  induction items_ok with
  | last item_ok => exact .last item_ok
  | more item_ok space_ok _ ih => exact .more item_ok space_ok ih

theorem pairsText_of_separated {pairs : List (String × Json)}
    (pairs_ok : Separated PairText text pairs) : PairsText text pairs := by
  induction pairs_ok with
  | last pair_ok => exact .last pair_ok
  | more pair_ok space_ok _ ih => exact .more pair_ok space_ok ih

def BrokenItem (text : List Char) (contexts : List String) : Prop :=
  ∃ inner, contexts = arrayElement :: inner ∧ BrokenValue text inner

theorem brokenItems_of_separated {contexts : List String}
    (items_ok : BrokenSeparated ItemText BrokenItem text contexts) :
    BrokenItems text contexts := by
  cases items_ok with
  | none => exact .none
  | first item_ok begun =>
    obtain ⟨inner, rfl, value_ok⟩ := item_ok
    exact .first value_ok begun
  | ended items_ok => exact .ended (itemsText_of_separated items_ok)
  | next items_ok space_ok item_ok =>
    obtain ⟨inner, rfl, value_ok⟩ := item_ok
    exact .next (itemsText_of_separated items_ok) space_ok value_ok

theorem brokenPairs_of_separated {contexts : List String}
    (pairs_ok : BrokenSeparated PairText BrokenPair text contexts) :
    BrokenPairs text contexts := by
  cases pairs_ok with
  | none => exact .none
  | first pair_ok begun => exact .first pair_ok begun
  | ended pairs_ok => exact .ended (pairsText_of_separated pairs_ok)
  | next pairs_ok space_ok pair_ok => exact .next (pairsText_of_separated pairs_ok) space_ok pair_ok

def AnswersValue (parser : Runner Json) (whole : List Char) : Prop :=
  parser.Answers whole (fun text _ value => ValueText text value)
    (fun text contexts message => BrokenValue text contexts ∧ message = "satisfy")

theorem AnswersValue.orElse {first second : Runner Json} (first_ok : AnswersValue first whole)
    (second_ok : AnswersValue second whole) :
    AnswersValue (Runner.orElse first second) whole :=
  Answers.orElse (first_ok.mono (fun _ _ _ _ value_ok => value_ok)
    fun _ _ _ broken => ⟨fun _ => second_ok, fun _ => broken⟩)

theorem answers_item (name : String) {parser : Parser N Json}
    (value_ok : AnswersValue (parser.eval call) whole) :
    ((Parser.seqLeft (Parser.label name parser) whitespace).eval call).Answers whole
      (fun text _ value => text ≠ [] ∧ ItemText text value)
      (fun text contexts message =>
        (∃ inner, contexts = name :: inner ∧ BrokenValue text inner) ∧ message = "satisfy") := by
  refine .seqLeft (.label name (value_ok.mono ?_
    fun _ contexts _ broken => ⟨⟨contexts, rfl, broken.1⟩, broken.2⟩))
  intro text rest value _ value_ok
  refine (answers_whitespace call rest).mono ?_ fun _ _ _ never => never.elim
  intro space _ _ _ space_ok
  have item_ok := ItemText.mk value_ok space_ok.1
  exact ⟨item_ok.nonempty, item_ok⟩

theorem answers_array {parser : Parser N Json}
    (inner : ∀ front rest, whole = '[' :: (front ++ rest) → AnswersValue (parser.eval call) rest) :
    AnswersValue ((array parser).eval call) whole := by
  refine .map Json.array ((answers_enclosed fun front rest split =>
    answers_item arrayElement (inner front rest split)).mono ?_ ?_)
  · rintro _ _ items _ ⟨space, body, space_ok, rfl, ⟨rfl, rfl⟩ | items_ok⟩
    · simpa using .emptyArray space_ok
    · exact .array space_ok (itemsText_of_separated items_ok)
  · rintro _ contexts _ ⟨⟨rfl, rfl⟩ | ⟨space, body, space_ok, rfl, broken⟩, rfl⟩
    · exact ⟨.start, rfl⟩
    · exact ⟨.array space_ok (brokenItems_of_separated broken), rfl⟩

theorem answers_key (call : {β : Type} → N β → Runner β) (whole : List Char) :
    (key.eval call).Answers whole
      (fun text _ name => ∃ keyText before after, StringText keyText name ∧ IsWhitespace before ∧
        IsWhitespace after ∧ text = keyText ++ before ++ ':' :: after)
      (fun text contexts message => BrokenPair text contexts ∧ message = "satisfy") := by
  refine .seqLeft (.seqLeft (.seqLeft (.label objectKey ((answers_stringLiteral call whole).mono
    ?_ ?_))))
  · rintro keyText rest name _ key_ok
    refine (answers_whitespace call rest).mono ?_ fun _ _ _ never => never.elim
    rintro before rest _ _ ⟨before_ok, -⟩
    refine (answers_char ':' call rest).mono ?_ ?_
    · rintro _ rest _ _ rfl
      refine (answers_whitespace call rest).mono ?_ fun _ _ _ never => never.elim
      rintro after _ _ _ ⟨after_ok, -⟩
      exact ⟨keyText, before, after, key_ok, before_ok, after_ok, by simp⟩
    · rintro _ _ _ ⟨rfl, rfl, rfl⟩
      simpa using .colon key_ok before_ok
  · rintro _ _ _ ⟨rfl | key_ok, rfl, rfl⟩
    · exact ⟨.start, rfl⟩
    · exact ⟨.key key_ok, rfl⟩

theorem answers_pair {parser : Parser N Json}
    (inner : ∀ front rest, whole = front ++ rest → AnswersValue (parser.eval call) rest) :
    ((pair parser).eval call).Answers whole (fun text _ pair => text ≠ [] ∧ PairText text pair)
      (fun text contexts message => BrokenPair text contexts ∧ message = "satisfy") := by
  refine .zip ((answers_key call whole).mono ?_ fun _ _ _ broken => broken)
  rintro _ rest name split ⟨keyText, before, after, key_ok, before_ok, after_ok, rfl⟩
  refine (answers_item objectValue (inner _ rest split)).mono ?_ ?_
  · rintro text _ value _ ⟨-, item_ok⟩
    exact ⟨by simp, by simpa using PairText.mk key_ok before_ok after_ok item_ok⟩
  · rintro text _ _ ⟨⟨contexts, rfl, broken⟩, rfl⟩
    exact ⟨by simpa using BrokenPair.value key_ok before_ok after_ok broken, rfl⟩

theorem answers_object {parser : Parser N Json}
    (inner : ∀ front rest, whole = '\x7b' :: (front ++ rest) →
      AnswersValue (parser.eval call) rest) :
    AnswersValue ((object parser).eval call) whole := by
  refine .map Json.ofPairs ((answers_enclosed fun front rest split =>
    answers_pair fun front' rest' split' => inner (front ++ front') rest' ?_).mono ?_ ?_)
  · simp [split, split']
  · rintro _ _ items _ ⟨space, body, space_ok, rfl, ⟨rfl, rfl⟩ | pairs_ok⟩
    · simpa using .emptyObject space_ok
    · exact .object space_ok (pairsText_of_separated pairs_ok) (Members.merges_ofPairs _)
  · rintro _ contexts _ ⟨⟨rfl, rfl⟩ | ⟨space, body, space_ok, rfl, broken⟩, rfl⟩
    · exact ⟨.start, rfl⟩
    · exact ⟨.object space_ok (brokenPairs_of_separated broken), rfl⟩

theorem answersValue_string (call : {β : Type} → N β → Runner β) (whole : List Char) :
    AnswersValue (string.eval call) whole := by
  refine .map Json.string ((answers_stringLiteral call whole).mono
    (fun _ _ _ _ string_ok => .string string_ok) ?_)
  rintro _ _ _ ⟨rfl | string_ok, rfl, rfl⟩
  · exact ⟨.start, rfl⟩
  · exact ⟨.string string_ok, rfl⟩

theorem answersValue_number (call : {β : Type} → N β → Runner β) (whole : List Char) :
    AnswersValue (number.eval call) whole := by
  refine (answers_number call whole).mono ?_ ?_
  · rintro _ _ _ _ ⟨numeral, number_ok, rfl⟩
    exact .number number_ok
  · rintro _ _ _ ⟨rfl | number_ok, rfl, rfl⟩
    · exact ⟨.start, rfl⟩
    · exact ⟨.number number_ok, rfl⟩

theorem answersValue_keyword {keyword : String} {value : Json}
    (known : keyword ∈ ["null", "true", "false"]) (value_ok : ValueText keyword.toList value)
    (call : {β : Type} → N β → Runner β) (whole : List Char) :
    AnswersValue ((mapTo value (Parser.literal keyword)).eval call) whole := by
  refine (answers_keyword _ known value whole).mono ?_ ?_
  · rintro _ _ _ _ ⟨rfl, rfl⟩
    exact value_ok
  · rintro _ _ _ ⟨keyword_ok, rfl, rfl⟩
    exact ⟨.keyword keyword_ok, rfl⟩

theorem answers_valueOver {parser : Parser N Json}
    (inner : ∀ rest, rest.countP Json.isOpening < whole.countP Json.isOpening →
      AnswersValue (parser.eval call) rest) :
    AnswersValue ((valueOver parser).eval call) whole := by
  -- A nested value lies behind a bracket, so fewer brackets are ahead of it.
  have nested (opening : Char) (opens : Json.isOpening opening = true) (front rest : List Char)
      (split : whole = opening :: (front ++ rest)) : AnswersValue (parser.eval call) rest := by
    apply inner
    rw [split, List.countP_cons_of_pos opens, List.countP_append]
    omega
  have object_ok := answers_object (nested '\x7b' (by decide))
  have array_ok := answers_array (nested '[' (by decide))
  have bool_ok := (answersValue_keyword (by simp) .true call whole).orElse
    (answersValue_keyword (by simp) .false call whole)
  exact ((((object_ok.orElse array_ok).orElse (answersValue_string call whole)).orElse
    (answersValue_number call whole)).orElse bool_ok).orElse
    (answersValue_keyword (by simp) .null call whole)

def reader (depth : Nat) : Runner Json :=
  value.run rules depth

theorem answers_reader (depth : Nat) (whole : List Char)
    (enough : whole.countP Json.isOpening ≤ depth) : AnswersValue (reader depth) whole := by
  induction depth generalizing whole with
  | zero => exact answers_valueOver fun rest fewer => absurd fewer (by omega)
  | succ depth ih => exact answers_valueOver fun rest fewer => ih rest (by omega)

end Grammar

end CombinatorJson
