import CombinatorJson.Proofs.Depth
import CombinatorJson.Proofs.Grammar.Complete

set_option autoImplicit false

namespace CombinatorJson

namespace Grammar

open CombinatorJson.Parser CombinatorJson.Runner

variable {text whole : List Char}

theorem document_run (depth : Nat) :
    ∃ call : {β : Type} → Nonterminal β → Runner β,
      document.run rules depth = document.eval call ∧ reader depth = value.eval call := by
  cases depth with
  | zero => exact ⟨_, rfl, rfl⟩
  | succ depth => exact ⟨callAt depth, rfl, rfl⟩

theorem answers_document {depth : Nat} (enough : whole.countP Json.isOpening ≤ depth) :
    (document.run rules depth).Answers whole
      (fun text rest value => DocumentText text value ∧ rest = []) BrokenDocument := by
  obtain ⟨call, same, value_eq⟩ := document_run depth
  rw [same]
  refine .seqLeft (.seqLeft (.seqRight ?_))
  refine (answers_whitespace call whole).mono ?_ fun _ _ _ never => never.elim
  rintro before rest _ split ⟨before_ok, -⟩
  have fewer : rest.countP Json.isOpening ≤ depth := by
    rw [split, List.countP_append] at enough
    omega
  rw [← value_eq]
  refine (answers_reader depth rest fewer).mono ?_ ?_
  · rintro text rest value - value_ok
    refine (answers_whitespace call rest).mono ?_ fun _ _ _ never => never.elim
    rintro after rest _ - ⟨after_ok, -⟩
    have document_ok := DocumentText.mk before_ok value_ok after_ok
    refine answers_endOfInput ?_ ?_
    · rintro -
      exact ⟨by simpa using document_ok, rfl⟩
    · rintro -
      simpa using BrokenDocument.trailing document_ok
  · rintro text contexts _ ⟨broken, rfl⟩
    exact .value before_ok broken

theorem DocumentText.reads {value : Json} (document_ok : DocumentText text value) {depth : Nat}
    (enough : text.countP Json.isOpening ≤ depth) :
    (document.run rules depth).Reads text none value := by
  obtain @⟨before, text, after, value, before_ok, value_ok, after_ok⟩ := document_ok
  obtain ⟨call, same, value_eq⟩ := document_run depth
  simp only [List.countP_append] at enough
  have opened := reads_whitespace call before_ok (value_ok.noSpace (after.head?.or none))
  have read := value_ok.reads depth (after.head?.or none) (by omega) fun _ _ =>
    numberEnds_of_space after_ok (by simp [NumberEnds])
  rw [value_eq] at read
  have stopped : NoSpace none := by simp [NoSpace]
  have spaced := ((opened.seqRight read).zip (reads_whitespace call after_ok stopped)).map Prod.fst
  rw [same, ← List.append_nil (before ++ text ++ after)]
  exact (Reads.zip spaced reads_endOfInput).map Prod.fst

end Grammar

namespace Json

open CombinatorJson.Grammar CombinatorJson.Runner

theorem documentReply?_cases (text : List Char) :
    (∃ value, DocumentText text value ∧
      documentReply? text = some (.done ((Cursor.start 0 text).advance text.length) value)) ∨
    ∃ front rest contexts message, text = front ++ rest ∧ BrokenDocument front contexts message ∧
      (document.run rules (depthBound text)).Breaks front rest.head? contexts message := by
  -- Each nested value lies behind a bracket of its own, so the depth is enough.
  have enough : text.countP isOpening ≤ depthBound text := Nat.le_succ _
  have answers := answers_document enough
  rcases answers with ⟨front, rest, value, split, read, document_ok, rfl⟩ |
    ⟨front, rest, contexts, message, split, broke, broken⟩
  · rw [List.append_nil] at split
    subst split
    exact .inl ⟨value, document_ok, read _ [] (by simp [Cursor.start]) rfl⟩
  · exact .inr ⟨front, rest, contexts, message, split, broken, broke⟩

theorem documentReply?_of_documentText {text : List Char} {value : Json}
    (document_ok : DocumentText text value) :
    documentReply? text = some (.done ((Cursor.start 0 text).advance text.length) value) :=
  document_ok.reads (Nat.le_succ _) _ [] (by simp [Cursor.start]) rfl

theorem documentReply?_of_breaks {text front rest : List Char} {contexts : List String}
    {message : String} (split : text = front ++ rest)
    (broke : (document.run rules (depthBound text)).Breaks front rest.head? contexts message) :
    documentReply? text =
      some (.fail ((Cursor.start 0 text).advance front.length) contexts message) :=
  broke (Cursor.start 0 text) rest split rfl

theorem parse_of_documentText {text : String} {value : Json}
    (document_ok : DocumentText text.toList value) : parse text = .ok value := by
  rw [parse, documentReply?_of_documentText document_ok]

theorem parse_of_breaks {text : String} {front rest : List Char} {contexts : List String}
    {message : String} (split : text.toList = front ++ rest)
    (broke : (document.run rules (depthBound text.toList)).Breaks front rest.head? contexts
      message) :
    parse text = .error (.ofCursor ((Cursor.start 0 text.toList).advance front.length) contexts
      message) := by
  rw [parse, documentReply?_of_breaks split broke]

theorem documentText_of_parse {text : String} {json : Json} (parsed : parse text = .ok json) :
    DocumentText text.toList json := by
  rcases documentReply?_cases text.toList with
    ⟨value, document_ok, -⟩ | ⟨front, rest, contexts, message, split, -, broke⟩
  · rw [parse_of_documentText document_ok] at parsed
    cases parsed
    exact document_ok
  · rw [parse_of_breaks split broke] at parsed
    contradiction

theorem exists_break_of_parse {text : String} {error : SyntaxError}
    (failed : parse text = .error error) :
    ∃ front rest, text.toList = front ++ rest ∧ error.offset = utf8Length front ∧
      BrokenDocument front error.contexts error.message ∧
      (document.run rules (depthBound text.toList)).Breaks front rest.head? error.contexts
        error.message := by
  rcases documentReply?_cases text.toList with
    ⟨value, document_ok, -⟩ | ⟨front, rest, contexts, message, split, broken, broke⟩
  · rw [parse_of_documentText document_ok] at failed
    contradiction
  · have same := (parse_of_breaks split broke).symm.trans failed
    cases same
    have ahead : (Cursor.start 0 text.toList).ahead = front ++ rest := split
    have offset := Cursor.offset_advance_length ahead
    refine ⟨front, rest, split, ?_, broken, broke⟩
    simpa [SyntaxError.ofCursor, Cursor.start] using offset

/-- Exactly the documents of the grammar are accepted, with the values they denote. On any other
text the parser fails. -/
theorem parse_correct (text : String) :
    (∀ value, parse text = .ok value ↔ DocumentText text.toList value) ∧
      ((∀ value, ¬DocumentText text.toList value) → ∃ remaining contexts message,
        documentReply? text.toList = some (.fail remaining contexts message) ∧
        parse text = .error (.ofCursor remaining contexts message)) := by
  refine ⟨fun value => ⟨fun parsed => ?_, parse_of_documentText⟩, fun never => ?_⟩
  · rcases documentReply?_cases text.toList with
      ⟨value', document_ok, -⟩ | ⟨front, rest, contexts, message, split, -, broke⟩
    · have same : Except.ok value' = Except.ok value :=
        (parse_of_documentText document_ok).symm.trans parsed
      cases same
      exact document_ok
    · rw [parse_of_breaks split broke] at parsed
      contradiction
  · rcases documentReply?_cases text.toList with
      ⟨value, document_ok, -⟩ | ⟨front, rest, contexts, message, split, -, broke⟩
    · exact absurd document_ok (never value)
    · exact ⟨_, contexts, message, documentReply?_of_breaks split broke,
        parse_of_breaks split broke⟩

end Json

end CombinatorJson
