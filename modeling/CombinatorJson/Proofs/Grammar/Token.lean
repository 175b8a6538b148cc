import CombinatorJson.Proofs.Characters
import CombinatorJson.Proofs.Grammar.Broken

set_option autoImplicit false

namespace CombinatorJson

namespace Grammar

open CombinatorJson.Parser CombinatorJson.Runner

variable {N : Type → Type} (call : {β : Type} → N β → Runner β)
variable {whole text : List Char} {next : Option Char}

def NoSpace (next : Option Char) : Prop :=
  ∀ c, next = some c → c ∉ [' ', '\t', '\n', '\r']

theorem contains_spaces (c : Char) :
    " \t\n\r".toList.contains c = true ↔ c ∈ [' ', '\t', '\n', '\r'] := by
  simp

theorem IsWhitespace.nil : IsWhitespace [] := by
  simp [IsWhitespace]

theorem reads_whitespace (space : IsWhitespace text) (stopped : NoSpace next) :
    (whitespace.eval call).Reads text next () := by
  refine Reads.map (fun _ => ()) (reads_many_satisfy (fun c member => ?_) fun c head => ?_)
  · exact (contains_spaces c).mpr (space c member)
  · exact Bool.eq_false_iff.mpr (mt (contains_spaces c).mp (stopped c head))

theorem answers_whitespace (call : {β : Type} → N β → Runner β) (whole : List Char) :
    (whitespace.eval call).Answers whole
      (fun text rest _ => IsWhitespace text ∧ NoSpace rest.head?) (fun _ _ _ => False) := by
  obtain ⟨text, rest, split, accepted, stopped⟩ := exists_span " \t\n\r".toList.contains whole
  have space : IsWhitespace text := fun c member => (contains_spaces c).mp (accepted c member)
  have none : NoSpace rest.head? := by
    intro c head member
    have rejected := stopped c head
    rw [(contains_spaces c).mpr member] at rejected
    contradiction
  exact .inl ⟨text, rest, (), split, reads_whitespace _ space none, space, none⟩

theorem reads_char (c : Char) (next : Option Char) :
    ((Parser.char c).eval call).Reads [c] next c := by
  refine reads_satisfy ?_ next
  exact beq_self_eq_true c

theorem breaks_char {c : Char} (other : next ≠ some c) :
    ((Parser.char c).eval call).Breaks [] next [] "satisfy" := by
  apply breaks_satisfy
  rintro d rfl
  simpa using other

theorem answers_keyword {keyword : String} (known : keyword ∈ ["null", "true", "false"])
    (value : Json) (whole : List Char) :
    ((mapTo value (Parser.literal keyword) : Parser N Json).eval call).Answers whole
      (fun text _ output => text = keyword.toList ∧ output = value)
      (fun text contexts message => BrokenKeyword text ∧ contexts = [] ∧ message = "satisfy") :=
  .map _ (answers_literal (fun _ _ => ⟨rfl, rfl⟩) fun _ _ _ split => ⟨.mk known split, rfl, rfl⟩)

def NoDigit (next : Option Char) : Prop :=
  ∀ c, next = some c → c.isDigit = false

theorem reads_digits (digits_ok : Digits text) (stopped : NoDigit next) :
    (digits.eval call).Reads text next text :=
  reads_many1_satisfy digits_ok.2 digits_ok.1 stopped

theorem breaks_digits (stopped : NoDigit next) :
    (digits.eval call).Breaks [] next [] "satisfy" :=
  (breaks_satisfy stopped).many1_first

theorem answers_digits (call : {β : Type} → N β → Runner β) (whole : List Char) :
    (digits.eval call).Answers whole
      (fun text rest _ => Digits text ∧ NoDigit rest.head?)
      (fun text contexts message => text = [] ∧ contexts = [] ∧ message = "satisfy") := by
  obtain ⟨text, rest, split, accepted, stopped⟩ := exists_span Char.isDigit whole
  by_cases missing : text = []
  · subst missing
    exact .inr ⟨[], rest, [], "satisfy", split, breaks_digits _ stopped, rfl, rfl, rfl⟩
  · have digits_ok : Digits text := ⟨missing, accepted⟩
    exact .inl ⟨text, rest, text, split, reads_digits _ digits_ok stopped, digits_ok, stopped⟩

end Grammar

end CombinatorJson
