import CombinatorJson.Proofs.Gathering

set_option autoImplicit false

namespace CombinatorJson

namespace Runner

variable {α : Type} {parser first second : Runner α} {start : Cursor}

theorem orElse_of_absent (absent : first.Absent start) (second : Runner α) :
    orElse first second start = second start := by
  obtain ⟨reply, replied, stays⟩ := absent
  simp only [orElse, replied, stays, if_true]

theorem orElse_of_not_absent (present : ¬first.Absent start) (second : Runner α) :
    orElse first second start = first start := by
  cases replied : first start with
  | none => simp only [orElse, replied]
  | some reply =>
    have decides : ¬reply.failsAt start = true := fun stays => present ⟨reply, replied, stays⟩
    simp only [orElse, replied, decides, if_false, Bool.false_eq_true]

theorem absent_congr (same : first start = second start) :
    first.Absent start ↔ second.Absent start := by
  simp only [Absent, same]

theorem orElse_assoc (first second third : Runner α) :
    orElse (orElse first second) third = orElse first (orElse second third) := by
  funext start
  by_cases absent : first.Absent start
  · -- What the first two reply is then what the second replies.
    have skipped := orElse_of_absent absent second
    rw [orElse_of_absent absent]
    by_cases absent' : second.Absent start
    · rw [orElse_of_absent ((absent_congr skipped).mpr absent'), orElse_of_absent absent']
    · rw [orElse_of_not_absent (mt (absent_congr skipped).mp absent'), skipped,
        orElse_of_not_absent absent']
  · have kept := orElse_of_not_absent absent second
    rw [orElse_of_not_absent (mt (absent_congr kept).mp absent), kept,
      orElse_of_not_absent absent]

instance : Std.Associative (@orElse α) :=
  ⟨orElse_assoc⟩

def Fails (parser : Runner α) (start : Cursor) : Prop :=
  ∃ remaining contexts message, parser start = some (.fail remaining contexts message)

theorem attempt_absent_iff : (attempt parser).Absent start ↔ parser.Fails start := by
  cases replied : parser start with
  | none => simp [Absent, Fails, attempt, replied]
  | some reply =>
    cases reply <;> simp [Absent, Fails, attempt, replied, Reply.failsAt, Cursor.movedFrom]

theorem attempt_done_iff {remaining : Cursor} {output : α} :
    attempt parser start = some (.done remaining output) ↔
      parser start = some (.done remaining output) := by
  cases replied : parser start with
  | none => simp [attempt, replied]
  | some reply => cases reply <;> simp [attempt, replied]

end Runner

namespace Parser

variable {N : Type → Type} {α : Type}

/-- What a choice replies: like the first alternative that does more than fail where it starts, or
like the last one. -/
inductive Chosen (call : {β : Type} → N β → Runner β) (start : Cursor) :
    List (Parser N α) → Reply α → Prop where
  | decided {front back : List (Parser N α)} {parser : Parser N α} {reply : Reply α}
      (skipped : ∀ other ∈ front, (other.eval call).Absent start)
      (replied : parser.eval call start = some reply) (decides : reply.failsAt start = false) :
      Chosen call start (front ++ parser :: back) reply
  | last {front : List (Parser N α)} {parser : Parser N α} {reply : Reply α}
      (skipped : ∀ other ∈ front, (other.eval call).Absent start)
      (replied : parser.eval call start = some reply) (stays : reply.failsAt start = true) :
      Chosen call start (front ++ [parser]) reply
  | nothing : Chosen call start [] (.failAt start "choice")

variable {call : {β : Type} → N β → Runner β} {start : Cursor} {reply : Reply α}
  {parser first : Parser N α} {parsers front back rest : List (Parser N α)}

theorem eval_foldl_orElse (first : Parser N α) (rest : List (Parser N α)) :
    (rest.foldl orElse first).eval call =
      (rest.map fun parser => parser.eval call).foldl Runner.orElse (first.eval call) := by
  induction rest generalizing first with
  | nil => rfl
  | cons second rest ih => exact ih (orElse first second)

theorem eval_choice_cons (first : Parser N α) (more : rest ≠ []) :
    (choice (first :: rest)).eval call =
      Runner.orElse (first.eval call) ((choice rest).eval call) := by
  -- The fold groups to the left, but the first alternative may as well stand before all others.
  obtain ⟨second, rest, rfl⟩ := List.exists_cons_of_ne_nil more
  let runners := rest.map fun parser => parser.eval call
  calc (choice (first :: second :: rest)).eval call
      = runners.foldl Runner.orElse (Runner.orElse (first.eval call) (second.eval call)) :=
        eval_foldl_orElse (orElse first second) rest
    _ = Runner.orElse (first.eval call) (runners.foldl Runner.orElse (second.eval call)) :=
        List.foldl_assoc
    _ = Runner.orElse (first.eval call) ((choice (second :: rest)).eval call) :=
        congrArg (Runner.orElse (first.eval call)) (eval_foldl_orElse second rest).symm

theorem eval_choice_of_skipped (skipped : ∀ other ∈ front, (other.eval call).Absent start)
    (parser : Parser N α) (back : List (Parser N α)) :
    (choice (front ++ parser :: back)).eval call start =
      (choice (parser :: back)).eval call start := by
  induction front with
  | nil => rfl
  | cons first front ih =>
    obtain ⟨absent, skipped⟩ := List.forall_mem_cons.mp skipped
    have more : front ++ parser :: back ≠ [] := by simp
    rw [List.cons_append, eval_choice_cons first more, Runner.orElse_of_absent absent, ih skipped]

theorem Chosen.replies (chosen : Chosen call start parsers reply) :
    (choice parsers).eval call start = some reply := by
  cases chosen with
  | @decided front back parser _ skipped replied decides =>
    have present : ¬(parser.eval call).Absent start := by
      intro absent
      simp [absent.failsAt replied] at decides
    rw [eval_choice_of_skipped skipped]
    cases back with
    | nil => exact replied
    | cons second back =>
      rw [eval_choice_cons parser (List.cons_ne_nil second back),
        Runner.orElse_of_not_absent present, replied]
  | last skipped replied => rw [eval_choice_of_skipped skipped]; exact replied
  | nothing => rfl

theorem Chosen.skip (absent : (first.eval call).Absent start) (more : parsers ≠ [])
    (chosen : Chosen call start parsers reply) : Chosen call start (first :: parsers) reply := by
  cases chosen with
  | decided skipped replied decides =>
    exact .decided (List.forall_mem_cons.mpr ⟨absent, skipped⟩) replied decides
  | last skipped replied stays =>
    exact .last (List.forall_mem_cons.mpr ⟨absent, skipped⟩) replied stays
  | nothing => contradiction

theorem chosen_of_first (replied : parser.eval call start = some reply)
    (decides : reply.failsAt start = false) : Chosen call start (parser :: back) reply :=
  .decided (List.forall_mem_nil _) replied decides

theorem chosen_of_single (replied : parser.eval call start = some reply) :
    Chosen call start [parser] reply := by
  cases decides : reply.failsAt start with
  | false => exact chosen_of_first replied decides
  | true => exact .last (List.forall_mem_nil _) replied decides

theorem chosen_of_replies (replied : (choice parsers).eval call start = some reply) :
    Chosen call start parsers reply := by
  induction parsers with
  | nil =>
    cases replied
    exact .nothing
  | cons first rest ih =>
    by_cases more : rest = []
    · subst more
      exact chosen_of_single replied
    · rw [eval_choice_cons first more] at replied
      by_cases absent : (first.eval call).Absent start
      · rw [Runner.orElse_of_absent absent] at replied
        exact (ih replied).skip absent more
      · rw [Runner.orElse_of_not_absent absent] at replied
        have decides : reply.failsAt start = false :=
          Bool.eq_false_iff.mpr fun stays => absent ⟨reply, replied, stays⟩
        exact chosen_of_first replied decides

theorem choice_eq_some_iff :
    (choice parsers).eval call start = some reply ↔ Chosen call start parsers reply :=
  ⟨chosen_of_replies, Chosen.replies⟩

theorem choice_done_iff {remaining : Cursor} {output : α} :
    (choice parsers).eval call start = some (.done remaining output) ↔
      ∃ front parser back, parsers = front ++ parser :: back ∧
        (∀ other ∈ front, (other.eval call).Absent start) ∧
        parser.eval call start = some (.done remaining output) := by
  rw [choice_eq_some_iff]
  constructor
  · intro chosen
    cases chosen with
    | decided skipped replied => exact ⟨_, _, _, rfl, skipped, replied⟩
    | last _ _ stays => contradiction
  · rintro ⟨front, parser, back, rfl, skipped, replied⟩
    exact .decided skipped replied rfl

theorem choice_attempts_done_iff {remaining : Cursor} {output : α} :
    (choice (parsers.map attempt)).eval call start = some (.done remaining output) ↔
      ∃ front parser back, parsers = front ++ parser :: back ∧
        (∀ other ∈ front, (other.eval call).Fails start) ∧
        parser.eval call start = some (.done remaining output) := by
  rw [choice_done_iff]
  constructor
  · rintro ⟨front', parser', back', split, skipped, replied⟩
    obtain ⟨front, rest, rfl, rfl, split'⟩ := List.map_eq_append_iff.mp split
    obtain ⟨parser, back, rfl, rfl, rfl⟩ := List.map_eq_cons_iff.mp split'
    refine ⟨front, parser, back, rfl, ?_, Runner.attempt_done_iff.mp replied⟩
    intro other member
    exact Runner.attempt_absent_iff.mp (skipped (attempt other) (List.mem_map_of_mem member))
  · rintro ⟨front, parser, back, rfl, failed, replied⟩
    refine ⟨front.map attempt, attempt parser, back.map attempt, by simp, ?_,
      Runner.attempt_done_iff.mpr replied⟩
    intro attempted member
    obtain ⟨other, member', rfl⟩ := List.mem_map.mp member
    exact Runner.attempt_absent_iff.mpr (failed other member')

theorem exists_first_success
    (returns : ∀ parser ∈ parsers, ∃ reply, parser.eval call start = some reply)
    (succeeds : ∃ parser ∈ parsers, ∃ remaining output,
      parser.eval call start = some (.done remaining output)) :
    ∃ front parser back, parsers = front ++ parser :: back ∧
      (∀ other ∈ front, (other.eval call).Fails start) ∧
      ∃ remaining output, parser.eval call start = some (.done remaining output) := by
  induction parsers with
  | nil => simp at succeeds
  | cons first rest ih =>
    obtain ⟨⟨reply, replied⟩, returns⟩ := List.forall_mem_cons.mp returns
    cases reply with
    | done remaining output => exact ⟨[], first, rest, rfl, by simp, remaining, output, replied⟩
    | fail remaining contexts message =>
      have later : ∃ parser ∈ rest, ∃ remaining output,
          parser.eval call start = some (.done remaining output) := by
        simpa [replied] using succeeds
      obtain ⟨front, parser, back, rfl, failed, replied'⟩ := ih returns later
      refine ⟨first :: front, parser, back, rfl, ?_, replied'⟩
      exact List.forall_mem_cons.mpr ⟨⟨remaining, contexts, message, replied⟩, failed⟩

theorem choice_attempts_succeeds_iff
    (returns : ∀ parser ∈ parsers, ∃ reply, parser.eval call start = some reply) :
    (∃ remaining output,
        (choice (parsers.map attempt)).eval call start = some (.done remaining output)) ↔
      ∃ parser ∈ parsers, ∃ remaining output,
        parser.eval call start = some (.done remaining output) := by
  constructor
  · rintro ⟨remaining, output, replied⟩
    obtain ⟨front, parser, back, rfl, -, replied'⟩ := choice_attempts_done_iff.mp replied
    exact ⟨parser, by simp, remaining, output, replied'⟩
  · intro succeeds
    obtain ⟨front, parser, back, split, failed, remaining, output, replied⟩ :=
      exists_first_success returns succeeds
    exact ⟨remaining, output,
      choice_attempts_done_iff.mpr ⟨front, parser, back, split, failed, replied⟩⟩

variable (call start)

/-- The first alternative that does more than fail at the start decides, and the last one where
there is none; alternatives may be grouped either way. Tried after any failure, they succeed where
one of them does, like the first that does. -/
theorem choice_decides (parsers : List (Parser N α)) :
    (∀ reply, (choice parsers).eval call start = some reply ↔ Chosen call start parsers reply) ∧
      (∀ first second third : Parser N α,
        (orElse (orElse first second) third).eval call =
          (orElse first (orElse second third)).eval call) ∧
      (∀ remaining output,
        (choice (parsers.map attempt)).eval call start = some (.done remaining output) ↔
          ∃ front parser back, parsers = front ++ parser :: back ∧
            (∀ other ∈ front, (other.eval call).Fails start) ∧
            parser.eval call start = some (.done remaining output)) ∧
      ((∀ parser ∈ parsers, ∃ reply, parser.eval call start = some reply) →
        ((∃ remaining output,
            (choice (parsers.map attempt)).eval call start = some (.done remaining output)) ↔
          ∃ parser ∈ parsers, ∃ remaining output,
            parser.eval call start = some (.done remaining output))) :=
  ⟨fun _ => choice_eq_some_iff, fun _ _ _ => Runner.orElse_assoc _ _ _,
    fun _ _ => choice_attempts_done_iff, choice_attempts_succeeds_iff⟩

def words : List (Parser (fun _ => Empty) String) :=
  [literal "letter", literal "let", literal "lemma"]

theorem choice_decides_attempted :
    (∀ parser ∈ words, ∃ reply, parser.eval noRules (.start 0 "lets".toList) = some reply) ∧
      (choice words).eval noRules (.start 0 "lets".toList) =
        some (.failAt (Cursor.advance 3 (.start 0 "lets".toList)) "satisfy") ∧
      ∃ remaining output, (choice (words.map attempt)).eval noRules (.start 0 "lets".toList) =
        some (.done remaining output) := by
  have returns : ∀ parser ∈ words, ∃ reply,
      parser.eval noRules (.start 0 "lets".toList) = some reply := by
    simp only [words, List.forall_mem_cons]
    exact ⟨⟨_, rfl⟩, ⟨_, rfl⟩, ⟨_, rfl⟩, List.forall_mem_nil _⟩
  obtain ⟨decides, -, -, succeeds⟩ := choice_decides noRules (.start 0 "lets".toList) words
  refine ⟨returns, (decides _).mpr (chosen_of_first rfl rfl), (succeeds returns).mpr ?_⟩
  exact ⟨literal "let", List.mem_cons_of_mem _ List.mem_cons_self, _, _, rfl⟩

end Parser

end CombinatorJson
