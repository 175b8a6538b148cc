import CombinatorJson.Proofs.Grammar.Contexts

set_option autoImplicit false

namespace CombinatorJson

namespace Grammar

open Scan

variable {text : List Char} {contexts : List String}

theorem DocumentText.passes_value {value : Json} {cs : List Container} (place : awaitsKey cs = false)
    (document_ok : DocumentText text value) : Passes cs text (put .valueRead cs) := by
  obtain ⟨before_ok, value_ok, after_ok⟩ := document_ok
  obtain ⟨word, scanned⟩ := (value_ok.passes place).spaced after_ok
  exact ⟨word, by rw [List.append_assoc, run_append, run_space before_ok, scanned]⟩

theorem not_documentText_of_brokenValue {before : List Char} (before_ok : IsWhitespace before)
    (value_ok : BrokenValue text contexts) (value : Json) : ¬DocumentText (before ++ text) value := by
  intro document_ok
  -- At the top of a document the scan keeps nothing. Inside an array it keeps whether an element
  -- is still awaited, which a broken value leaves so and a document does not.
  have broken : LeavesOpen [⟨.array, .value⟩] text contexts [⟨.array, .value⟩] :=
    value_ok.leavesOpen rfl (.inr rfl)
  have read : Passes [⟨.array, .value⟩] (before ++ text) [⟨.array, .valueRead⟩] :=
    document_ok.passes_value rfl
  obtain ⟨token, opened, scanned, -⟩ := broken
  obtain ⟨word, scanned'⟩ := read
  rw [run_append, run_space before_ok, scanned] at scanned'
  have containers := congrArg Scan.containers scanned'
  have last := congrArg List.getLast? containers
  simp at last

theorem BrokenDocument.message_cases {message : String}
    (document_ok : BrokenDocument text contexts message) :
    (message = "satisfy" ∧ ∀ value, ¬DocumentText text value) ∨
      (message = "endOfInput" ∧ contexts = [] ∧ ∃ value, DocumentText text value) := by
  cases document_ok with
  | value before_ok value_ok =>
    exact .inl ⟨rfl, not_documentText_of_brokenValue before_ok value_ok⟩
  | trailing document_ok => exact .inr ⟨rfl, rfl, _, document_ok⟩

theorem DocumentText.concat_space {value : Json} {c : Char} (document_ok : DocumentText text value)
    (space : c ∈ [' ', '\t', '\n', '\r']) : DocumentText (text ++ [c]) value := by
  obtain ⟨before_ok, value_ok, after_ok⟩ := document_ok
  have longer : IsWhitespace (_ ++ [c]) :=
    List.forall_mem_append.mpr ⟨after_ok, List.forall_mem_singleton.mpr space⟩
  simpa using DocumentText.mk before_ok value_ok longer

theorem rejection_of_readNumber {literal message : String}
    (rejected : readNumber literal = .error message) : message = "number: invalid float literal" := by
  unfold readNumber at rejected
  split at rejected
  · contradiction
  · simpa using rejected.symm

end Grammar

namespace Json

open CombinatorJson.Grammar CombinatorJson.Parser CombinatorJson.Runner

theorem exists_trailing {text : String} {front rest : List Char} {contexts : List String}
    {message : String} {value : Json} (split : text.toList = front ++ rest)
    (document_ok : DocumentText front value)
    (broke : (document.run rules (depthBound text.toList)).Breaks front rest.head? contexts
      message) :
    ∃ c more, rest = c :: more ∧ c ∉ [' ', '\t', '\n', '\r'] := by
  cases rest with
  | nil =>
    rw [List.append_nil] at split
    have accepted := parse_of_documentText (split ▸ document_ok)
    rw [parse_of_breaks (by simpa using split) broke] at accepted
    contradiction
  | cons c more =>
    refine ⟨c, more, rfl, fun space => ?_⟩
    -- White space would still belong to the document.
    have accepted := documentReply?_of_documentText (document_ok.concat_space space)
    have refused := documentReply?_of_same_beginning broke accepted
    contradiction

/-- A failed check of a character is one of a value that is not complete. Any other failure is that
of the end of the text, after a whole document; a literal of a number is never rejected. -/
theorem parse_message {text : String} {error : SyntaxError} (failed : parse text = .error error) :
    (error.message = "endOfInput" ∨ error.message = "satisfy") ∧
      (∀ literal message, readNumber literal = .error message → error.message ≠ message) ∧
      ∃ front rest, text.toList = front ++ rest ∧ error.offset = utf8Length front ∧
        (error.message = "endOfInput" ↔ ∃ value, parse (String.ofList front) = .ok value) ∧
        (error.message = "endOfInput" → error.contexts = [] ∧
          ∃ c more, rest = c :: more ∧ c ∉ [' ', '\t', '\n', '\r']) := by
  obtain ⟨front, rest, split, offset, broken, broke⟩ := exists_break_of_parse failed
  have cases := broken.message_cases
  have known : error.message = "endOfInput" ∨ error.message = "satisfy" :=
    cases.symm.imp And.left And.left
  have accepts (value : Json) :
      parse (String.ofList front) = .ok value ↔ DocumentText front value := by
    have toList : (String.ofList front).toList = front := String.toList_ofList
    constructor
    · intro parsed
      exact toList ▸ documentText_of_parse parsed
    · intro document_ok
      exact parse_of_documentText (toList.symm ▸ document_ok)
  refine ⟨known, ?_, front, rest, split, offset, ?_, ?_⟩
  · intro literal message rejected
    rw [rejection_of_readNumber rejected]
    rcases known with ended | check
    · rw [ended]
      decide
    · rw [check]
      decide
  · rcases cases with ⟨check, never⟩ | ⟨ended, -, document_ok⟩
    · simp [check, accepts, never]
    · simpa [ended, accepts] using document_ok
  · intro ended
    rcases cases with ⟨check, -⟩ | ⟨-, outside, value, document_ok⟩
    · simp [check] at ended
    · exact ⟨outside, exists_trailing split document_ok broke⟩

theorem parse_message_second_value :
    ∃ error, parse "[1] 2" = .error error ∧
      (error.message = "endOfInput" ∨ error.message = "satisfy") ∧
      (∀ literal message, readNumber literal = .error message → error.message ≠ message) ∧
      ∃ front rest, "[1] 2".toList = front ++ rest ∧ error.offset = utf8Length front ∧
        (error.message = "endOfInput" ↔ ∃ value, parse (String.ofList front) = .ok value) ∧
        (error.message = "endOfInput" → error.contexts = [] ∧
          ∃ c more, rest = c :: more ∧ c ∉ [' ', '\t', '\n', '\r']) :=
  ⟨_, rfl, parse_message rfl⟩

end Json

end CombinatorJson
