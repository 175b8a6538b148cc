import CombinatorJson.Proofs.Grammar.Message
import CombinatorJson.Proofs.Numeric.Nearest

set_option autoImplicit false

namespace CombinatorJson

namespace Runner

def StopsAfter {α : Type} (parser : Runner α) (text : List Char) (next : Option Char) : Prop :=
  ∀ (start : Cursor) (rest : List Char), start.ahead = text ++ rest → rest.head? = next →
    ∃ reply, parser start = some reply ∧ reply.remaining = start.advance text.length

variable {α : Type} {parser : Runner α} {text : List Char} {next : Option Char}

theorem Reads.stopsAfter {output : α} (reads : parser.Reads text next output) :
    parser.StopsAfter text next :=
  fun start rest ahead head => ⟨_, reads start rest ahead head, rfl⟩

theorem Breaks.stopsAfter {contexts : List String} {message : String}
    (breaks : parser.Breaks text next contexts message) : parser.StopsAfter text next :=
  fun start rest ahead head => ⟨_, breaks start rest ahead head, rfl⟩

end Runner

namespace Grammar

open CombinatorJson.Parser CombinatorJson.Runner

variable {N : Type → Type} {text front : List Char}

def BeginsNumber (text : List Char) : Prop :=
  ∃ more numeral, NumberText (text ++ more) numeral

/-- The longest beginning of a text that is also one of a number. -/
structure LongestBeginning (text front : List Char) : Prop where
  begins : front <+: text
  viable : BeginsNumber front
  longest : ∀ other, other <+: text → BeginsNumber other → other.length ≤ front.length

theorem numberEnds_none : NumberEnds none := by
  simp [NumberEnds]

theorem NumberText.unique {numeral numeral' : Numeral} (left : NumberText text numeral)
    (right : NumberText text numeral') : numeral = numeral' := by
  have same := (read?_of_numberText left).symm.trans (read?_of_numberText right)
  exact Option.some.inj same

theorem not_numberText_of_broken (broken : text = [] ∨ BrokenNumber text) (numeral : Numeral) :
    ¬NumberText text numeral := by
  intro number_ok
  have value_ok : BrokenValue text [] := by
    rcases broken with rfl | number_ok
    · exact .start
    · exact .number number_ok
  have document_ok := DocumentText.mk .nil (.number number_ok) .nil
  rw [List.append_nil] at document_ok
  exact not_documentText_of_brokenValue .nil value_ok _ document_ok

theorem beginsNumber_of_broken (broken : text = [] ∨ BrokenNumber text) : BeginsNumber text := by
  rcases broken with rfl | number_ok
  · exact ⟨['0'], _, .mk .absent digits_zero .absent .absent⟩
  · exact number_ok.completes

theorem longestBeginning_of_stops {rest : List Char} {call : {β : Type} → N β → Runner β}
    (viable : BeginsNumber front) (stops : (number.eval call).StopsAfter front rest.head?) :
    LongestBeginning (front ++ rest) front := by
  refine ⟨List.prefix_append front rest, viable, ?_⟩
  intro other begins longer_viable
  obtain ⟨more, numeral, number_ok⟩ := longer_viable
  by_contra longer
  have within := List.prefix_of_prefix_length_le (List.prefix_append front rest) begins (by omega)
  obtain ⟨further, rfl⟩ := within
  obtain ⟨c, further, rfl⟩ : ∃ c tail, further = c :: tail := by
    apply List.exists_cons_of_ne_nil
    rintro rfl
    simp at longer
  have seen : rest.head? = some c :=
    head?_of_begins ((List.prefix_append_right_inj front).mp begins)
  -- The parser stopped before this character, so it does not read a number that goes on with it.
  have whole : (Cursor.start 0 (front ++ c :: further ++ more)).ahead =
      front ++ c :: (further ++ more) := by simp [Cursor.start]
  obtain ⟨reply, replied, stopped⟩ := stops _ _ whole seen.symm
  have read := reads_number call number_ok numberEnds_none
    (Cursor.start 0 (front ++ c :: further ++ more)) [] (by simp [Cursor.start]) rfl
  rw [read, Option.some.injEq] at replied
  subst replied
  have ahead := congrArg Cursor.ahead stopped
  simp [Reply.remaining, Cursor.start] at ahead

theorem toBinary_rounds (numeral : Numeral) :
    Binary.Rounds numeral.negative numeral.decimal.value (numeral.toBinary : Double) :=
  Binary.rounds_ofDecimal (by decide) (by decide) _ _

/-- The parser takes the longest beginning of the text that some number has as well. If that is a
number, the value is the double nearest to it; otherwise the parser fails at its end. So numbers of
one sign and one value give one double, however they are written. -/
theorem number_run (rules : {β : Type} → N β → Parser N β) (depth : Nat) :
    (∀ start : Cursor, ∃ front, LongestBeginning start.ahead front ∧
      (∀ numeral, NumberText front numeral →
        ∃ value, Binary.Rounds numeral.negative numeral.decimal.value value ∧
          number.run rules depth start =
            some (.done (start.advance front.length) (.number value))) ∧
      ((∀ numeral, ¬NumberText front numeral) →
        number.run rules depth start =
          some (.fail (start.advance front.length) [] "satisfy"))) ∧
    ∀ left right numeral numeral', NumberText left numeral → NumberText right numeral' →
      numeral.negative = numeral'.negative → numeral.decimal.value = numeral'.decimal.value →
      ∃ value,
        number.run rules depth (.start 0 left) =
          some (.done ((Cursor.start 0 left).advance left.length) (.number value)) ∧
        number.run rules depth (.start 0 right) =
          some (.done ((Cursor.start 0 right).advance right.length) (.number value)) := by
  obtain ⟨call, same⟩ := exists_run_eq_eval rules depth
  rw [same]
  constructor
  · intro start
    rcases answers_number call start.ahead with
      ⟨front, rest, value, split, reads, numeral, number_ok, rfl⟩ |
      ⟨front, rest, contexts, message, split, breaks, broken, rfl, rfl⟩
    · have viable : BeginsNumber front := ⟨[], numeral, by simpa using number_ok⟩
      refine ⟨front, split ▸ longestBeginning_of_stops viable reads.stopsAfter, ?_, ?_⟩
      · intro numeral' number_ok'
        obtain rfl := number_ok.unique number_ok'
        exact ⟨_, toBinary_rounds numeral, reads start rest split rfl⟩
      · intro never
        exact absurd number_ok (never numeral)
    · have viable := beginsNumber_of_broken broken
      refine ⟨front, split ▸ longestBeginning_of_stops viable breaks.stopsAfter, ?_, ?_⟩
      · intro numeral number_ok
        exact absurd number_ok (not_numberText_of_broken broken numeral)
      · intro _
        exact breaks start rest split rfl
  · intro left right numeral numeral' left_ok right_ok sign value
    have rounds := toBinary_rounds numeral'
    rw [← sign, ← value] at rounds
    have equal := (toBinary_rounds numeral).unique rounds
    have read := reads_number call left_ok numberEnds_none (.start 0 left) []
      (by simp [Cursor.start]) rfl
    have read' := reads_number call right_ok numberEnds_none (.start 0 right) []
      (by simp [Cursor.start]) rfl
    rw [← equal] at read'
    exact ⟨_, read, read'⟩

theorem number_run_exponent :
    ∃ value,
      number.run rules 0 (.start 0 "-1.5".toList) =
        some (.done ((Cursor.start 0 "-1.5".toList).advance 4) (.number value)) ∧
      number.run rules 0 (.start 0 "-15e-1".toList) =
        some (.done ((Cursor.start 0 "-15e-1".toList).advance 6) (.number value)) := by
  have one : Digits ['1'] := ⟨by simp, List.forall_mem_singleton.mpr rfl⟩
  have five : Digits ['5'] := ⟨by simp, List.forall_mem_singleton.mpr rfl⟩
  have fifteen : Digits ['1', '5'] := ⟨by simp, List.forall_mem_cons.mpr ⟨rfl, five.2⟩⟩
  have mark : 'e' ∈ ['e', 'E'] := by decide
  have point : NumberText "-1.5".toList ⟨true, ⟨15, -1⟩⟩ :=
    .mk .minus one (.present five) .absent
  have power : NumberText "-15e-1".toList ⟨true, ⟨15, -1⟩⟩ :=
    .mk .minus fifteen .absent (.present mark .minus one)
  exact (number_run rules 0).2 _ _ _ _ point power rfl rfl

end Grammar

end CombinatorJson
