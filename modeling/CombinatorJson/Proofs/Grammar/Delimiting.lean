import CombinatorJson.Proofs.Grammar.Document

set_option autoImplicit false

namespace CombinatorJson

namespace Grammar

open CombinatorJson.Parser CombinatorJson.Runner

variable {start remaining : Cursor} {json : Json} {depth : Nat}

theorem value_run_of_deeper {reply : Reply Json} (replied : value.run rules depth start = some reply)
    (other : Nat) : (reader (max depth other)) start = some reply :=
  run_within rules (Nat.le_max_left depth other) value start reply replied

theorem valueText_of_read (read : value.run rules depth start = some (.done remaining json))
    (ended : remaining.ahead = []) : ValueText start.ahead json := by
  have deeper := value_run_of_deeper read (start.ahead.countP Json.isOpening)
  have answers := answers_reader _ start.ahead (Nat.le_max_right depth _)
  rcases answers with ⟨text, rest, found, split, reads, value_ok⟩ |
    ⟨text, rest, contexts, message, split, breaks, _⟩
  · have replied := (reads start rest split rfl).symm.trans deeper
    simp only [Option.some.injEq, Reply.done.injEq] at replied
    obtain ⟨place, same⟩ := replied
    -- Nothing is ahead of the place where the reading ends, so it has passed the whole text.
    have nothing : rest = [] := by
      rw [← Cursor.ahead_advance_length split, place, ended]
    rw [split, nothing, List.append_nil, ← same]
    exact value_ok
  · have replied := (breaks start rest split rfl).symm.trans deeper
    simp at replied

/-- A value that fills a text is read in the same way before any other text, of which nothing is
taken. After a number that text may not begin like more of the number. -/
theorem value_self_delimiting {start' : Cursor} {rest : List Char}
    (read : value.run rules depth start = some (.done remaining json))
    (ended : remaining.ahead = []) (continued : start'.ahead = start.ahead ++ rest)
    (ends : ∀ number, json = .number number → NumberEnds rest.head?) :
    (∀ depth', start.ahead.countP Json.isOpening ≤ depth' → value.run rules depth' start' =
      some (.done (start'.advance start.ahead.length) json)) ∧
    (start'.advance start.ahead.length).ahead = rest := by
  have value_ok := valueText_of_read read ended
  constructor
  · intro depth' enough
    have reads := value_ok.reads depth' rest.head? enough ends
    exact reads start' rest continued rfl
  · exact Cursor.ahead_advance_length continued

theorem value_self_delimiting_number :
    value.run rules 0 (.start 0 "-1.50".toList) =
        some (.done (Cursor.advance 5 (.start 0 "-1.50".toList))
          (.number (.ofDecimal true ⟨150, -2⟩))) ∧
      value.run rules 1 (.start 0 "-1.50,[]".toList) =
        some (.done (Cursor.advance 5 (.start 0 "-1.50,[]".toList))
          (.number (.ofDecimal true ⟨150, -2⟩))) := by
  have read : value.run rules 0 (.start 0 "-1.50".toList) =
      some (.done (Cursor.advance 5 (.start 0 "-1.50".toList))
        (.number (.ofDecimal true ⟨150, -2⟩))) := by rfl
  have continued : (Cursor.start 0 "-1.50,[]".toList).ahead =
      "-1.50".toList ++ ",[]".toList := by rfl
  have ends : NumberEnds (some ',') := numberEnds_of_separator (by decide)
  have followed := value_self_delimiting read rfl continued fun _ _ => ends
  exact ⟨read, followed.1 1 (Nat.zero_le 1)⟩

end Grammar

end CombinatorJson
