import CombinatorJson.Parser
import CombinatorJson.Proofs.Approach
import CombinatorJson.Proofs.Repetition
import CombinatorJson.Proofs.Replies

set_option autoImplicit false

namespace CombinatorJson

namespace Cursor

variable {start middle later : Cursor}

def Reaches (start later : Cursor) : Prop :=
  ∃ count, later = start.advance count

theorem Reaches.refl (start : Cursor) : start.Reaches start :=
  ⟨0, (advance_zero start).symm⟩

theorem Reaches.trans (first : start.Reaches middle) (second : middle.Reaches later) :
    start.Reaches later := by
  obtain ⟨count, rfl⟩ := first
  obtain ⟨count', rfl⟩ := second
  exact ⟨count + count', advance_advance count count' start⟩

theorem Reaches.buffer_eq (reaches : start.Reaches later) : later.buffer = start.buffer := by
  obtain ⟨count, rfl⟩ := reaches
  exact buffer_advance count start

theorem Reaches.text_eq (reaches : start.Reaches later) : later.text = start.text := by
  obtain ⟨count, rfl⟩ := reaches
  exact text_advance count start

theorem Reaches.offset_le (reaches : start.Reaches later) : start.offset ≤ later.offset := by
  obtain ⟨count, rfl⟩ := reaches
  exact offset_le_offset_advance count start

theorem sourceLength_eq (cursor : Cursor) : cursor.sourceLength = utf8Length cursor.text := by
  simp [sourceLength, text, cursor.offset_eq]

theorem offset_eq_front (cursor : Cursor) :
    cursor.text = cursor.behind.reverse ++ cursor.ahead ∧
      cursor.offset = utf8Length cursor.behind.reverse :=
  ⟨rfl, by rw [utf8Length_reverse, cursor.offset_eq]⟩

theorem Reaches.eq_of_offset (reaches : start.Reaches later) (same : later.offset = start.offset) :
    later = start := by
  obtain ⟨count, rfl⟩ := reaches
  have passed : utf8Length (start.ahead.take count) = 0 := Nat.left_eq_add.mp same.symm
  rw [utf8Length_eq_zero, List.take_eq_nil_iff] at passed
  -- Nothing is passed by moving over no characters, nor by moving on at the end of the text.
  cases passed with
  | inl none => rw [none, advance_zero]
  | inr ended => apply ext_of_parts <;> simp [ended]

theorem Reaches.eq_of_not_moved (reaches : start.Reaches later)
    (stays : ¬later.movedFrom start = true) : later = start := by
  have same : later.offset = start.offset := by simpa [movedFrom] using stays
  exact reaches.eq_of_offset same

theorem Reaches.lt_of_moved (reaches : start.Reaches later) (moved : later.movedFrom start = true) :
    start.offset < later.offset := by
  have differs : later.offset ≠ start.offset := by simpa [movedFrom] using moved
  exact Nat.lt_of_le_of_ne reaches.offset_le differs.symm

theorem Reaches.length_lt (reaches : start.Reaches later)
    (moved : later.movedFrom start = true) : later.ahead.length < start.ahead.length := by
  obtain ⟨count, rfl⟩ := reaches
  have passed : start.ahead.take count ≠ [] := by
    intro none
    simp [movedFrom, advance, none] at moved
  have positive := List.length_pos_iff.mpr passed
  simp only [List.length_take] at positive
  simp only [ahead_advance, List.length_drop]
  omega

theorem Reaches.antisymm (forth : start.Reaches later) (back : later.Reaches start) :
    later = start :=
  forth.eq_of_offset (Nat.le_antisymm back.offset_le forth.offset_le)

end Cursor

namespace Runner

variable {α β γ : Type}

def Forward (parser : Runner α) : Prop :=
  ∀ start reply, parser start = some reply → start.Reaches reply.remaining

theorem forward_of_total {parser : Runner α} (respond : Cursor → Reply α)
    (same : ∀ start, parser start = some (respond start))
    (lands : ∀ start : Cursor, start.Reaches (respond start).remaining) : parser.Forward := by
  intro start reply given
  rw [same] at given
  cases given
  exact lands start

theorem forward_satisfy (accepts : Char → Bool) : (satisfy accepts).Forward := by
  intro start reply given
  unfold satisfy at given
  split at given
  · split at given
    · cases given
      exact ⟨1, rfl⟩
    · cases given
      exact .refl start
  · cases given
    exact .refl start

theorem forward_pure (value : α) : (pure value).Forward :=
  forward_of_total _ (fun _ => rfl) .refl

theorem forward_fail (message : String) : (fail message : Runner α).Forward :=
  forward_of_total _ (fun _ => rfl) .refl

theorem forward_endOfInput : endOfInput.Forward := by
  intro start reply given
  unfold endOfInput at given
  split at given <;> (cases given; exact .refl start)

theorem reaches_literalFrom (output : String) (expected : List Char) (start : Cursor) :
    start.Reaches (literalFrom output expected start).remaining := by
  induction expected generalizing start with
  | nil => exact .refl start
  | cons c rest ih =>
    rw [literalFrom]
    split
    · have step : start.Reaches (start.advance 1) := ⟨1, rfl⟩
      exact step.trans (ih (start.advance 1))
    · exact .refl start

theorem forward_literal (expected : String) : (literal expected).Forward :=
  forward_of_total _ (fun _ => rfl) (reaches_literalFrom expected expected.toList)

theorem forward_takeWhile (accepts : Char → Bool) : (takeWhile accepts).Forward :=
  forward_of_total _ (fun _ => rfl) fun _ => ⟨_, rfl⟩

theorem forward_takeWhile1 (accepts : Char → Bool) : (takeWhile1 accepts).Forward := by
  intro start reply given
  unfold takeWhile1 at given
  split at given
  · split at given
    · exact forward_takeWhile accepts start reply given
    · cases given
      exact .refl start
  · cases given
    exact .refl start

section

variable {parser : Runner α}

theorem Forward.through {treated : Runner β} (forward : parser.Forward)
    (lands : ∀ start reply, treated start = some reply → reply.remaining = start ∨
      ∃ inner, parser start = some inner ∧ reply.remaining = inner.remaining) :
    treated.Forward := by
  intro start reply given
  cases lands start reply given with
  | inl stays => exact stays ▸ .refl start
  | inr follows =>
    obtain ⟨inner, replied, same⟩ := follows
    exact same ▸ forward start inner replied

theorem Forward.map (f : α → β) (forward : parser.Forward) : (Runner.map f parser).Forward := by
  apply forward.through
  intro start reply given
  obtain ⟨inner, replied, rfl⟩ := Option.map_eq_some_iff.mp given
  exact .inr ⟨inner, replied, Reply.remaining_map f inner⟩

theorem Forward.tryMap (f : α → Except String β) (forward : parser.Forward) :
    (Runner.tryMap f parser).Forward := by
  apply forward.through
  intro start reply given
  grind [Runner.tryMap, Reply.failAt, Reply.remaining]

theorem Forward.attempt (forward : parser.Forward) : (Runner.attempt parser).Forward := by
  apply forward.through
  intro start reply given
  grind [Runner.attempt, Reply.remaining]

theorem Forward.label (name : String) (forward : parser.Forward) :
    (Runner.label name parser).Forward := by
  apply forward.through
  intro start reply given
  grind [Runner.label, Reply.remaining]

theorem Forward.lookAhead (forward : parser.Forward) : (Runner.lookAhead parser).Forward := by
  apply forward.through
  intro start reply given
  grind [Runner.lookAhead, Reply.remaining]

theorem Forward.notFollowedBy (forward : parser.Forward) :
    (Runner.notFollowedBy parser).Forward := by
  apply forward.through
  intro start reply given
  grind [Runner.notFollowedBy, Reply.failAt, Reply.remaining]

theorem Forward.recognize (forward : parser.Forward) : (Runner.recognize parser).Forward := by
  apply forward.through
  intro start reply given
  grind [Runner.recognize, Reply.remaining]

end

section

variable {first : Runner α} {second : Runner β}

theorem Forward.bind {next : α → Runner β} (forward : first.Forward)
    (forward' : ∀ output, (next output).Forward) : (Runner.bind first next).Forward := by
  intro start reply given
  rcases bind_eq_some_iff.mp given with
    ⟨remaining, output, replied, continued⟩ | ⟨remaining, contexts, message, replied, rfl⟩
  · have reached := forward start _ replied
    exact reached.trans (forward' output remaining reply continued)
  · exact forward start _ replied

theorem Forward.seqRight (forward : first.Forward) (forward' : second.Forward) :
    (Runner.seqRight first second).Forward :=
  .bind forward fun _ => forward'

theorem Forward.zip (forward : first.Forward) (forward' : second.Forward) :
    (Runner.zip first second).Forward :=
  .bind forward fun output => forward'.map fun other => (output, other)

theorem Forward.orElse {second : Runner α} (forward : first.Forward) (forward' : second.Forward) :
    (Runner.orElse first second).Forward := by
  intro start reply given
  obtain ⟨inner, replied, chosen⟩ := orElse_eq_some_iff.mp given
  split at chosen
  · exact forward' start reply chosen
  · exact chosen ▸ forward start inner replied

theorem Forward.optional (forward : first.Forward) : (Runner.optional first).Forward := by
  rw [optional_eq_orElse]
  exact (forward.map some).orElse (forward_pure none)

end

section

variable {item : Runner β} {separator : Runner γ}

theorem Forward.repeatFrom (forward : item.Forward) (absorb : α → β → α) {rounds : List Char}
    {current : Cursor} {gathered : α} {reply : Reply α}
    (given : Runner.repeatFrom item absorb rounds current gathered = some reply) :
    current.Reaches reply.remaining := by
  -- Along the rounds: each one starts where the one before it succeeded.
  rcases repeatFrom_eq_some_iff.mp given with
    ⟨remaining, contexts, message, replied, -, rfl⟩ | ⟨inner, -, -, rfl⟩ |
    ⟨remaining, output, round, rest, replied, -, rfl, continued⟩
  · exact forward current _ replied
  · exact .refl current
  · have reached := forward current _ replied
    exact reached.trans (forward.repeatFrom absorb continued)
termination_by rounds.length

theorem Forward.collectFrom (forward : item.Forward) (items : List β) :
    (Runner.collectFrom item items).Forward := by
  intro start reply given
  obtain ⟨inner, repeated, rfl⟩ := Option.map_eq_some_iff.mp given
  rw [Reply.remaining_map]
  exact forward.repeatFrom _ repeated

theorem Forward.many (forward : item.Forward) : (Runner.many item).Forward :=
  forward.collectFrom []

theorem Forward.many1 (forward : item.Forward) : (Runner.many1 item).Forward :=
  .bind forward fun output => forward.collectFrom [output]

theorem Forward.countFrom (forward : item.Forward) (n : Nat) (items : List β) :
    Runner.Forward fun current => Runner.countFrom item n current items := by
  induction n generalizing items with
  | zero => exact forward_pure items.reverse
  | succ n ih =>
    rw [countFrom_succ]
    exact forward.bind fun output => ih (output :: items)

theorem Forward.count (n : Nat) (forward : item.Forward) : (Runner.count n item).Forward :=
  forward.countFrom n []

theorem Forward.path (forward : item.Forward) {start last : Cursor} {outputs : List β}
    (path : Path (Approaches item separator) start outputs last) : start.Reaches last := by
  induction path with
  | here place => exact .refl place
  | step first _ ih => exact (forward _ _ first.2).trans ih

theorem Forward.manyTill (forward : item.Forward) (forward' : separator.Forward) :
    (Runner.manyTill item separator).Forward := by
  intro start reply given
  obtain ⟨outputs, last, path, concludes⟩ := manyTill_eq_some_iff.mp given
  have reached := forward.path path
  cases concludes with
  | found matched => exact reached.trans (forward' last _ matched)
  | broken failed _ => exact reached.trans (forward' last _ failed)
  | refused _ failed => exact reached.trans (forward last _ failed)

theorem Forward.sepBy1 (forward : item.Forward) (forward' : separator.Forward) :
    (Runner.sepBy1 item separator).Forward :=
  .bind forward fun output => (forward'.seqRight forward).collectFrom [output]

theorem Forward.sepBy (forward : item.Forward) (forward' : separator.Forward) :
    (Runner.sepBy item separator).Forward := by
  rw [sepBy_eq_orElse]
  exact (forward.sepBy1 forward').orElse (forward_pure [])

theorem chainl1_eq_bind (operand : Runner α) (operator : Runner (α → α → α)) :
    Runner.chainl1 operand operator = Runner.bind operand fun output remaining =>
      Runner.repeatFrom (Runner.zip operator operand) (fun left (apply, right) => apply left right)
        remaining.ahead remaining output :=
  rfl

theorem Forward.chainl1 {operator : Runner (β → β → β)} (forward : item.Forward)
    (forward' : operator.Forward) : (Runner.chainl1 item operator).Forward := by
  rw [chainl1_eq_bind]
  exact forward.bind fun _ _ _ given => (forward'.zip forward).repeatFrom _ given

end

end Runner

namespace Parser

open CombinatorJson.Runner

variable {N : Type → Type}

theorem eval_forward {call : {β : Type} → N β → Runner β}
    (forward : ∀ {β : Type} (name : N β), (call name).Forward) {α : Type} (parser : Parser N α) :
    (parser.eval call).Forward := by
  induction parser with
  | satisfy accepts => exact forward_satisfy accepts
  | pure value => exact forward_pure value
  | fail message => exact forward_fail message
  | endOfInput => exact forward_endOfInput
  | literal expected => exact forward_literal expected
  | takeWhile accepts => exact forward_takeWhile accepts
  | takeWhile1 accepts => exact forward_takeWhile1 accepts
  | ref name => exact forward name
  | map f _ ih => exact ih.map f
  | tryMap f _ ih => exact ih.tryMap f
  | bind _ _ ih ih' => exact ih.bind ih'
  | seqRight _ _ ih ih' => exact ih.seqRight ih'
  | zip _ _ ih ih' => exact ih.zip ih'
  | orElse _ _ ih ih' => exact ih.orElse ih'
  | attempt _ ih => exact ih.attempt
  | label name _ ih => exact ih.label name
  | lookAhead _ ih => exact ih.lookAhead
  | notFollowedBy _ ih => exact ih.notFollowedBy
  | recognize _ ih => exact ih.recognize
  | optional _ ih => exact ih.optional
  | many _ ih => exact ih.many
  | many1 _ ih => exact ih.many1
  | count n _ ih => exact ih.count n
  | manyTill _ _ ih ih' => exact ih.manyTill ih'
  | sepBy _ _ ih ih' => exact ih.sepBy ih'
  | sepBy1 _ _ ih ih' => exact ih.sepBy1 ih'
  | chainl1 _ _ ih ih' => exact ih.chainl1 ih'

variable {rules : {β : Type} → N β → Parser N β}

theorem run_forward (depth : Nat) {α : Type} (parser : Parser N α) :
    (parser.run rules depth).Forward := by
  induction depth generalizing α with
  | zero => exact eval_forward (fun _ _ _ never => by contradiction) parser
  | succ depth ih => exact eval_forward (fun name => ih (rules name)) parser

/-- Wherever a run ends, it is in the text it started in, between two characters of it, not before
the start and not beyond the end. -/
theorem run_remaining {depth : Nat} {α : Type} {parser : Parser N α} {start : Cursor}
    {reply : Reply α} (returned : parser.run rules depth start = some reply) :
    reply.remaining.buffer = start.buffer ∧ reply.remaining.text = start.text ∧
      (∃ front rest, start.text = front ++ rest ∧ reply.remaining.ahead = rest ∧
        reply.remaining.offset = utf8Length front) ∧
      start.offset ≤ reply.remaining.offset ∧ reply.remaining.offset ≤ start.sourceLength := by
  have reached := run_forward depth parser start reply returned
  obtain ⟨split, place⟩ := reply.remaining.offset_eq_front
  have inside : reply.remaining.offset ≤ reply.remaining.sourceLength := Nat.le_add_right _ _
  have sameLength : reply.remaining.sourceLength = start.sourceLength := by
    rw [Cursor.sourceLength_eq, Cursor.sourceLength_eq, reached.text_eq]
  refine ⟨reached.buffer_eq, reached.text_eq, ?_, reached.offset_le, sameLength ▸ inside⟩
  exact ⟨_, _, reached.text_eq ▸ split, rfl, place⟩

inductive Nested : Type → Type where
  | brackets : Nested Unit

def nested : Parser Nested Unit :=
  mapTo () (between (char '[') (optional (ref .brackets)) (char ']'))

def nestedRules : {β : Type} → Nested β → Parser Nested β
  | _, .brackets => nested

def unclosed : Cursor :=
  (Cursor.start 0 "é[[".toList).advance 1

theorem run_remaining_unclosed :
    nested.run nestedRules 2 unclosed = some (.fail (unclosed.advance 2) [] "satisfy") ∧
      unclosed.offset ≤ (unclosed.advance 2).offset ∧
      (unclosed.advance 2).offset ≤ unclosed.sourceLength := by
  have returned : nested.run nestedRules 2 unclosed =
      some (.fail (unclosed.advance 2) [] "satisfy") := rfl
  obtain ⟨_, _, _, after, inside⟩ := run_remaining returned
  exact ⟨returned, after, inside⟩

end Parser

end CombinatorJson
