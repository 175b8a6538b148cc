import CombinatorJson.Proofs.Composition
import CombinatorJson.Proofs.Entries
import CombinatorJson.Proofs.Path

set_option autoImplicit false

namespace CombinatorJson

namespace Runner

variable {α β γ : Type}

/-- The parser replies at every place, and never from before it. -/
structure Steady (parser : Runner α) : Prop where
  returns : ∀ start, ∃ reply, parser start = some reply
  forward : parser.Forward

def Advances (parser : Runner α) (start : Cursor) (output : α) (middle : Cursor) : Prop :=
  parser start = some (.done middle output) ∧ start.offset < middle.offset

/-- The parser fails at this very place or succeeds without leaving it. -/
def RestsAt (parser : Runner α) (place : Cursor) : Prop :=
  ∃ reply, parser place = some reply ∧ reply.remaining = place

/-- How a repetition ends at a place, with what it has gathered. -/
inductive Ends (item : Runner β) (last : Cursor) (gathered : α) : Reply α → Prop where
  | rest (rests : item.RestsAt last) : Ends item last gathered (.done last gathered)
  | broken {remaining : Cursor} {contexts : List String} {message : String}
      (failed : item last = some (.fail remaining contexts message))
      (further : last.offset < remaining.offset) :
      Ends item last gathered (.fail remaining contexts message)

section

variable {item : Runner β} {start last : Cursor} {output : β} {outputs : List β}

theorem Advances.movedFrom {middle : Cursor} (advances : item.Advances start output middle) :
    middle.movedFrom start = true := by
  have differs : middle.offset ≠ start.offset := Nat.ne_of_gt advances.2
  simpa [Cursor.movedFrom] using differs

theorem RestsAt.not_movedFrom (rests : item.RestsAt last) :
    ∃ reply, item last = some reply ∧ reply.remaining.movedFrom last = false := by
  obtain ⟨reply, replied, same⟩ := rests
  exact ⟨reply, replied, by simp [Cursor.movedFrom, same]⟩

theorem Forward.restsAt (forward : item.Forward) {reply : Reply β}
    (replied : item last = some reply) (stays : reply.remaining.movedFrom last = false) :
    item.RestsAt last := by
  have reached := forward last reply replied
  exact ⟨reply, replied, reached.eq_of_not_moved (by simp [stays])⟩

theorem Forward.repeatFrom_path (forward : item.Forward)
    (path : Path item.Advances start outputs last) (absorb : α → β → α) {rounds : List Char}
    (gathered : α) (enough : start.ahead.length ≤ rounds.length) :
    ∃ left : List Char, last.ahead.length ≤ left.length ∧
      Runner.repeatFrom item absorb rounds start gathered =
        Runner.repeatFrom item absorb left last (outputs.foldl absorb gathered) := by
  -- Every step takes at least one character, so the rounds last as long as the text does.
  induction path generalizing rounds gathered with
  | here place => exact ⟨rounds, enough, rfl⟩
  | @step start middle last output outputs first rest ih =>
    have moved := first.movedFrom
    have shorter := (forward start _ first.1).length_lt moved
    simp only [Reply.remaining] at shorter
    cases rounds with
    | nil =>
      simp only [List.length_nil] at enough
      omega
    | cons round rounds =>
      simp only [List.length_cons] at enough
      obtain ⟨left, enough', same⟩ := ih (absorb gathered output) (by omega : _ ≤ rounds.length)
      refine ⟨left, enough', ?_⟩
      rw [Runner.repeatFrom, first.1]
      simp only [Reply.remaining, moved, if_true, same, List.foldl_cons]

theorem Forward.exists_path_of_repeatFrom (forward : item.Forward) {absorb : α → β → α}
    {rounds : List Char} {current : Cursor} {gathered : α} {reply : Reply α}
    (given : Runner.repeatFrom item absorb rounds current gathered = some reply) :
    ∃ outputs last, Path item.Advances current outputs last ∧
      Ends item last (outputs.foldl absorb gathered) reply := by
  rcases repeatFrom_eq_some_iff.mp given with
    ⟨remaining, contexts, message, failed, moved, rfl⟩ | ⟨inner, replied, stays, rfl⟩ |
    ⟨remaining, output, round, rest, replied, moved, rfl, continued⟩
  · have further := (forward current _ failed).lt_of_moved moved
    exact ⟨[], current, .here current, .broken failed further⟩
  · exact ⟨[], current, .here current, .rest (forward.restsAt replied stays)⟩
  · have further := (forward current _ replied).lt_of_moved moved
    obtain ⟨outputs, last, path, ends⟩ := forward.exists_path_of_repeatFrom continued
    exact ⟨output :: outputs, last, .step ⟨replied, further⟩ path, ends⟩
termination_by rounds.length

theorem Forward.repeatFrom_iff (forward : item.Forward) {absorb : α → β → α} {rounds : List Char}
    {gathered : α} {reply : Reply α} (enough : start.ahead.length ≤ rounds.length) :
    Runner.repeatFrom item absorb rounds start gathered = some reply ↔
      ∃ outputs last, Path item.Advances start outputs last ∧
        Ends item last (outputs.foldl absorb gathered) reply := by
  constructor
  · exact forward.exists_path_of_repeatFrom
  · rintro ⟨outputs, last, path, ends⟩
    obtain ⟨left, -, same⟩ := forward.repeatFrom_path path absorb gathered enough
    rw [same]
    apply repeatFrom_eq_some_iff.mpr
    cases ends with
    | rest rests =>
      obtain ⟨inner, replied, stays⟩ := rests.not_movedFrom
      exact .inr (.inl ⟨inner, replied, stays, rfl⟩)
    | @broken remaining contexts message failed further =>
      have moved : remaining.movedFrom last = true := by
        have differs : remaining.offset ≠ last.offset := Nat.ne_of_gt further
        simpa [Cursor.movedFrom] using differs
      exact .inl ⟨remaining, contexts, message, failed, moved, rfl⟩

theorem foldl_snoc (outputs : List β) :
    outputs.foldl (fun items output => items ++ [output]) [] = outputs := by
  simp [← List.flatMap_def]

theorem many_eq_repeatFrom (item : Runner β) :
    many item = fun start =>
      Runner.repeatFrom item (fun items output => items ++ [output]) start.ahead start [] := by
  simp only [repeatFrom_eq_map, foldl_snoc, map_id]

theorem Forward.many_iff (forward : item.Forward) {reply : Reply (List β)} :
    Runner.many item start = some reply ↔
      ∃ outputs last, Path item.Advances start outputs last ∧ Ends item last outputs reply := by
  rw [many_eq_repeatFrom, forward.repeatFrom_iff (Nat.le_refl _)]
  simp only [foldl_snoc]

theorem Forward.many_done_iff (forward : item.Forward) {remaining : Cursor} :
    Runner.many item start = some (.done remaining outputs) ↔
      Path item.Advances start outputs remaining ∧ item.RestsAt remaining := by
  rw [forward.many_iff]
  constructor
  · rintro ⟨outputs, last, path, ⟨rests⟩⟩
    exact ⟨path, rests⟩
  · rintro ⟨path, rests⟩
    exact ⟨outputs, remaining, path, .rest rests⟩

theorem Forward.many_fail_iff (forward : item.Forward) {remaining : Cursor}
    {contexts : List String} {message : String} :
    Runner.many item start = some (.fail remaining contexts message) ↔
      ∃ outputs last, Path item.Advances start outputs last ∧
        item last = some (.fail remaining contexts message) ∧ last.offset < remaining.offset := by
  rw [forward.many_iff]
  constructor
  · rintro ⟨outputs, last, path, ends⟩
    cases ends with
    | broken failed further => exact ⟨outputs, last, path, failed, further⟩
  · rintro ⟨outputs, last, path, failed, further⟩
    exact ⟨outputs, last, path, .broken failed further⟩

end

section

variable {N : Type → Type} {parser : Runner α} {item : Runner α} {separator : Runner β}

theorem Steady.returnsBy (steady : parser.Steady) (trace : Trace N) :
    ReturnsBy (fun _ => True) parser trace :=
  fun start _ => steady.returns start

theorem steady_of_returnsBy (forward : parser.Forward) {trace : Trace N}
    (returns : ReturnsBy (fun _ => True) parser trace) : parser.Steady :=
  ⟨fun start => returns start fun _ _ => trivial, forward⟩

/-- What a steady parser enters plays no part: it returns whatever that does. -/
abbrev noTrace : Trace fun _ => Empty :=
  fun _ _ => False

theorem Steady.map (f : α → γ) (steady : parser.Steady) : (Runner.map f parser).Steady :=
  steady_of_returnsBy (steady.forward.map f) ((steady.returnsBy noTrace).map f)

theorem Steady.many (steady : item.Steady) : (Runner.many item).Steady :=
  steady_of_returnsBy steady.forward.many ((steady.returnsBy noTrace).many steady.forward)

theorem Steady.many1 (steady : item.Steady) : (Runner.many1 item).Steady :=
  steady_of_returnsBy steady.forward.many1 ((steady.returnsBy noTrace).many1 steady.forward)

theorem Steady.sepBy1 (steady : item.Steady) (steady' : separator.Steady) :
    (Runner.sepBy1 item separator).Steady :=
  steady_of_returnsBy (steady.forward.sepBy1 steady'.forward)
    ((steady.returnsBy noTrace).sepBy1 steady.forward steady'.forward (steady'.returnsBy noTrace))

theorem Steady.sepBy (steady : item.Steady) (steady' : separator.Steady) :
    (Runner.sepBy item separator).Steady :=
  steady_of_returnsBy (steady.forward.sepBy steady'.forward)
    ((steady.returnsBy noTrace).sepBy steady.forward steady'.forward (steady'.returnsBy noTrace))

theorem Steady.chainl1 {operator : Runner (α → α → α)} (steady : item.Steady)
    (steady' : operator.Steady) : (Runner.chainl1 item operator).Steady :=
  steady_of_returnsBy (steady.forward.chainl1 steady'.forward)
    ((steady.returnsBy noTrace).chainl1 steady.forward steady'.forward (steady'.returnsBy noTrace))

end

end Runner

namespace Parser

open CombinatorJson.Runner

variable {N : Type → Type} {call : {β : Type} → N β → Runner β} {α : Type}

theorem eval_steady (rules_ok : ∀ {β : Type} (name : N β), (call name).Steady)
    {parser : Parser N α} (ends : parser.EndsLoops) : (parser.eval call).Steady where
  returns _ := eval_returns (fun name => (rules_ok name).forward) ends fun entry _ =>
    (rules_ok entry.name).returns entry.place
  forward := eval_forward (fun name => (rules_ok name).forward) parser

/-- A steady item is repeated finitely often: up to the first place where it fails or stays, or to
the first failure beyond its start, which is the failure of the whole. -/
theorem many_gathers {item : Parser N α} (steady : (item.eval call).Steady) :
    ((many item).eval call).Steady ∧
      (∀ start remaining outputs,
        (many item).eval call start = some (.done remaining outputs) ↔
          Path (item.eval call).Advances start outputs remaining ∧
            (item.eval call).RestsAt remaining) ∧
      (∀ start remaining contexts message,
        (many item).eval call start = some (.fail remaining contexts message) ↔
          ∃ outputs last, Path (item.eval call).Advances start outputs last ∧
            item.eval call last = some (.fail remaining contexts message) ∧
            last.offset < remaining.offset) ∧
      ((many1 item).eval call).Steady ∧
      ((skipMany item).eval call).Steady ∧
      ((skipMany1 item).eval call).Steady ∧
      (∀ {β : Type} (separator : Parser N β), (separator.eval call).Steady →
        ((sepBy item separator).eval call).Steady ∧
          ((sepBy1 item separator).eval call).Steady) ∧
      ∀ operator : Parser N (α → α → α), (operator.eval call).Steady →
        ((chainl1 item operator).eval call).Steady := by
  refine ⟨steady.many, ?_, ?_, steady.many1, steady.many.map _, steady.many1.map _, ?_, ?_⟩
  · intro start remaining outputs
    exact steady.forward.many_done_iff
  · intro start remaining contexts message
    exact steady.forward.many_fail_iff
  · intro β separator steady'
    exact ⟨steady.sepBy steady', steady.sepBy1 steady'⟩
  · intro operator steady'
    exact steady.chainl1 steady'

def noRules : {β : Type} → Empty → Runner β :=
  nofun

theorem many_gathers_unmoved :
    ((optional (char 'a') : Parser (fun _ => Empty) _).eval noRules).Steady ∧
      (many (optional (char 'a'))).eval noRules (.start 0 "aab".toList) =
        some (.done (Cursor.advance 2 (.start 0 "aab".toList)) [some 'a', some 'a']) ∧
      (many (literal "ab")).eval noRules (.start 0 "ababac".toList) =
        some (.fail (Cursor.advance 5 (.start 0 "ababac".toList)) [] "satisfy") := by
  have steady : ((optional (char 'a') : Parser (fun _ => Empty) _).eval noRules).Steady :=
    eval_steady nofun trivial
  have steady' : ((literal "ab" : Parser (fun _ => Empty) _).eval noRules).Steady :=
    eval_steady nofun trivial
  refine ⟨steady, ?_, ?_⟩
  · refine ((many_gathers steady).2.1 _ _ _).mpr ⟨?_, _, rfl, rfl⟩
    exact .step ⟨rfl, by decide⟩ (.step ⟨rfl, by decide⟩ (.here _))
  · have path : Path (Runner.literal "ab").Advances (.start 0 "ababac".toList) ["ab", "ab"]
        (Cursor.advance 4 (.start 0 "ababac".toList)) :=
      .step ⟨rfl, by decide⟩ (.step ⟨rfl, by decide⟩ (.here _))
    exact ((many_gathers steady').2.2.1 _ _ _ _).mpr ⟨_, _, path, rfl, by decide⟩

end Parser

end CombinatorJson
