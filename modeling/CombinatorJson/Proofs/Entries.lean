import CombinatorJson.Proofs.Forward

set_option autoImplicit false

namespace CombinatorJson

structure Entry (N : Type → Type) where
  {type : Type}
  name : N type
  place : Cursor

/-- The entries of the run at each cursor. -/
abbrev Trace (N : Type → Type) := Cursor → Entry N → Prop

namespace Runner

variable {α β : Type}

inductive Rounds (item : Runner α) : Cursor → Cursor → Prop where
  | first (start : Cursor) : Rounds item start start
  | later {start middle place : Cursor} {output : α}
      (replied : item start = some (.done middle output)) (moved : middle.movedFrom start = true)
      (rounds : Rounds item middle place) : Rounds item start place

def notYet (final : Runner β) (item : Runner α) : Runner α := fun start =>
  match final start with
  | none => none
  | some stop => if stop.failsAt start then item start else none

end Runner

namespace Trace

open CombinatorJson.Runner

variable {N : Type → Type} {α β : Type}

def sequence (first : Runner α) (trace : Trace N) (next : α → Trace N) : Trace N :=
  fun start entry => trace start entry ∨
    ∃ remaining output, first start = some (.done remaining output) ∧ next output remaining entry

def alternative (first : Runner α) (trace second : Trace N) : Trace N :=
  fun start entry => trace start entry ∨
    ∃ reply, first start = some reply ∧ reply.failsAt start = true ∧ second start entry

def rounds (item : Runner α) (trace : Trace N) : Trace N :=
  fun start entry => ∃ place, Rounds item start place ∧ trace place entry

def counted (item : Runner α) (trace : Trace N) : Nat → Trace N
  | 0 => fun _ _ => False
  | n + 1 => sequence item trace fun _ => counted item trace n

end Trace

namespace Parser

open CombinatorJson.Runner

variable {N : Type → Type}

/-- What the parser enters when the rules do what `call` says. -/
def Enters (call : {β : Type} → N β → Runner β) : {α : Type} → Parser N α → Trace N
  | _, satisfy _ | _, pure _ | _, fail _ | _, endOfInput => fun _ _ => False
  | _, literal _ | _, takeWhile _ | _, takeWhile1 _ => fun _ _ => False
  | _, ref name => fun start entry => entry = ⟨name, start⟩
  | _, map _ parser => parser.Enters call
  | _, tryMap _ parser => parser.Enters call
  | _, attempt parser => parser.Enters call
  | _, label _ parser => parser.Enters call
  | _, lookAhead parser => parser.Enters call
  | _, notFollowedBy parser => parser.Enters call
  | _, recognize parser => parser.Enters call
  | _, optional parser => parser.Enters call
  | _, bind first next =>
    .sequence (first.eval call) (first.Enters call) fun output => (next output).Enters call
  | _, seqRight first second =>
    .sequence (first.eval call) (first.Enters call) fun _ => second.Enters call
  | _, zip first second =>
    .sequence (first.eval call) (first.Enters call) fun _ => second.Enters call
  | _, orElse first second =>
    .alternative (first.eval call) (first.Enters call) (second.Enters call)
  | _, many item => .rounds (item.eval call) (item.Enters call)
  | _, many1 item =>
    .sequence (item.eval call) (item.Enters call) fun _ =>
      .rounds (item.eval call) (item.Enters call)
  | _, count n item => .counted (item.eval call) (item.Enters call) n
  | _, manyTill item final =>
    -- The end is tried in every round, and the item only where the end does not begin.
    .rounds (notYet (final.eval call) (item.eval call))
      (.alternative (final.eval call) (final.Enters call) (item.Enters call))
  | _, sepBy item separator =>
    .sequence (item.eval call) (item.Enters call) fun _ =>
      .rounds (Runner.seqRight (separator.eval call) (item.eval call))
        (.sequence (separator.eval call) (separator.Enters call) fun _ => item.Enters call)
  | _, sepBy1 item separator =>
    .sequence (item.eval call) (item.Enters call) fun _ =>
      .rounds (Runner.seqRight (separator.eval call) (item.eval call))
        (.sequence (separator.eval call) (separator.Enters call) fun _ => item.Enters call)
  | _, chainl1 operand operator =>
    .sequence (operand.eval call) (operand.Enters call) fun _ =>
      .rounds (Runner.zip (operator.eval call) (operand.eval call))
        (.sequence (operator.eval call) (operator.Enters call) fun _ => operand.Enters call)

/-- Every repetition in the parser ends where its item stops moving: there is none up to an end. -/
def EndsLoops : {α : Type} → Parser N α → Prop
  | _, satisfy _ | _, pure _ | _, fail _ | _, endOfInput => True
  | _, literal _ | _, takeWhile _ | _, takeWhile1 _ | _, ref _ => True
  | _, map _ parser => parser.EndsLoops
  | _, tryMap _ parser => parser.EndsLoops
  | _, attempt parser => parser.EndsLoops
  | _, label _ parser => parser.EndsLoops
  | _, lookAhead parser => parser.EndsLoops
  | _, notFollowedBy parser => parser.EndsLoops
  | _, recognize parser => parser.EndsLoops
  | _, optional parser => parser.EndsLoops
  | _, bind first next => first.EndsLoops ∧ ∀ output, (next output).EndsLoops
  | _, seqRight first second => first.EndsLoops ∧ second.EndsLoops
  | _, zip first second => first.EndsLoops ∧ second.EndsLoops
  | _, orElse first second => first.EndsLoops ∧ second.EndsLoops
  | _, many item => item.EndsLoops
  | _, many1 item => item.EndsLoops
  | _, count _ item => item.EndsLoops
  | _, manyTill _ _ => False
  | _, sepBy item separator => item.EndsLoops ∧ separator.EndsLoops
  | _, sepBy1 item separator => item.EndsLoops ∧ separator.EndsLoops
  | _, chainl1 operand operator => operand.EndsLoops ∧ operator.EndsLoops

end Parser

namespace Trace

open CombinatorJson.Runner

variable {N : Type → Type} {α β : Type}

section

variable {first : Runner α} {trace second : Trace N} {next : α → Trace N}

def Empty (trace : Trace N) : Prop :=
  ∀ start entry, ¬trace start entry

theorem Empty.none : Empty (fun _ _ => False : Trace N) :=
  fun _ _ never => never

theorem Empty.sequence (empty : trace.Empty) (empty' : ∀ output, (next output).Empty) :
    (Trace.sequence first trace next).Empty := by
  rintro start entry (entered | ⟨remaining, output, _, entered⟩)
  · exact empty start entry entered
  · exact empty' output remaining entry entered

theorem Empty.alternative (empty : trace.Empty) (empty' : second.Empty) :
    (Trace.alternative first trace second).Empty := by
  rintro start entry (entered | ⟨_, _, _, entered⟩)
  · exact empty start entry entered
  · exact empty' start entry entered

theorem Empty.rounds (empty : trace.Empty) : (Trace.rounds first trace).Empty :=
  fun _ entry ⟨place, _, entered⟩ => empty place entry entered

theorem Empty.counted (empty : trace.Empty) (n : Nat) : (Trace.counted first trace n).Empty := by
  induction n with
  | zero => exact .none
  | succ n ih => exact .sequence empty fun _ => ih

end

def Onward (trace : Trace N) : Prop :=
  ∀ start entry, trace start entry → start.Reaches entry.place

theorem onward_none : Onward (fun _ _ => False : Trace N) :=
  fun _ _ never => never.elim

theorem Onward.sequence {first : Runner α} {trace : Trace N} {next : α → Trace N}
    (forward : first.Forward) (onward : trace.Onward) (onward' : ∀ output, (next output).Onward) :
    (Trace.sequence first trace next).Onward := by
  rintro start entry (entered | ⟨remaining, output, replied, entered⟩)
  · exact onward start entry entered
  · have reached := forward start _ replied
    exact reached.trans (onward' output remaining entry entered)

theorem Onward.alternative {first : Runner α} {trace second : Trace N} (onward : trace.Onward)
    (onward' : second.Onward) : (Trace.alternative first trace second).Onward := by
  rintro start entry (entered | ⟨_, _, _, entered⟩)
  · exact onward start entry entered
  · exact onward' start entry entered

theorem Onward.rounds {item : Runner α} {trace : Trace N} (forward : item.Forward)
    (onward : trace.Onward) : (Trace.rounds item trace).Onward := by
  intro start entry ⟨place, rounds, entered⟩
  induction rounds with
  | first start => exact onward start entry entered
  | later replied _ _ ih =>
    have reached := forward _ _ replied
    exact reached.trans (ih entered)

theorem Onward.counted {item : Runner α} {trace : Trace N} (forward : item.Forward)
    (onward : trace.Onward) (n : Nat) : (Trace.counted item trace n).Onward := by
  induction n with
  | zero => exact onward_none
  | succ n ih => exact .sequence forward onward fun _ => ih

end Trace

namespace Runner

variable {α β : Type}

theorem Forward.notYet {final : Runner β} {item : Runner α} (forward : item.Forward) :
    (Runner.notYet final item).Forward := by
  intro start reply given
  unfold Runner.notYet at given
  split at given
  · contradiction
  · split at given
    · exact forward start reply given
    · contradiction

end Runner

namespace Parser

open CombinatorJson.Runner

variable {N : Type → Type} {call : {β : Type} → N β → Runner β}

theorem enters_onward (forward : ∀ {β : Type} (name : N β), (call name).Forward) {α : Type}
    (parser : Parser N α) : (parser.Enters call).Onward := by
  have forwards {β : Type} (part : Parser N β) : (part.eval call).Forward :=
    eval_forward forward part
  induction parser with
  | satisfy | pure | fail | endOfInput | literal | takeWhile | takeWhile1 =>
    exact Trace.onward_none
  | ref name =>
    rintro start entry rfl
    exact .refl start
  | map _ _ ih | tryMap _ _ ih | label _ _ ih => exact ih
  | attempt _ ih | lookAhead _ ih | notFollowedBy _ ih | recognize _ ih | optional _ ih => exact ih
  | bind _ _ ih ih' => exact .sequence (forwards _) ih ih'
  | seqRight _ _ ih ih' | zip _ _ ih ih' => exact .sequence (forwards _) ih fun _ => ih'
  | orElse _ _ ih ih' => exact .alternative ih ih'
  | many _ ih => exact .rounds (forwards _) ih
  | many1 _ ih => exact .sequence (forwards _) ih fun _ => .rounds (forwards _) ih
  | count n _ ih => exact .counted (forwards _) ih n
  | manyTill _ _ ih ih' => exact .rounds (forwards _).notYet (.alternative ih' ih)
  | sepBy _ _ ih ih' | sepBy1 _ _ ih ih' =>
    refine .sequence (forwards _) ih fun _ => .rounds ((forwards _).seqRight (forwards _)) ?_
    exact .sequence (forwards _) ih' fun _ => ih
  | chainl1 _ _ ih ih' =>
    refine .sequence (forwards _) ih fun _ => .rounds ((forwards _).zip (forwards _)) ?_
    exact .sequence (forwards _) ih' fun _ => ih

end Parser

namespace Runner

variable {N : Type → Type} {α β γ : Type} {returns : Entry N → Prop}

def ReturnsBy (returns : Entry N → Prop) (parser : Runner α) (trace : Trace N) : Prop :=
  ∀ start, (∀ entry, trace start entry → returns entry) → ∃ reply, parser start = some reply

theorem returnsBy_of_total {parser : Runner α} (respond : Cursor → Reply α)
    (same : ∀ start, parser start = some (respond start)) (trace : Trace N) :
    ReturnsBy returns parser trace :=
  fun start _ => ⟨respond start, same start⟩

theorem returnsBy_satisfy (accepts : Char → Bool) (trace : Trace N) :
    ReturnsBy returns (satisfy accepts) trace := by
  intro start _
  unfold satisfy
  split
  · split <;> exact ⟨_, rfl⟩
  · exact ⟨_, rfl⟩

theorem returnsBy_endOfInput (trace : Trace N) : ReturnsBy returns endOfInput trace := by
  intro start _
  unfold endOfInput
  split <;> exact ⟨_, rfl⟩

theorem returnsBy_takeWhile1 (accepts : Char → Bool) (trace : Trace N) :
    ReturnsBy returns (takeWhile1 accepts) trace := by
  intro start _
  unfold takeWhile1
  split
  · split <;> exact ⟨_, rfl⟩
  · exact ⟨_, rfl⟩

section

variable {parser : Runner α} {trace : Trace N}

theorem ReturnsBy.through {treated : Runner β} (parser_ok : ReturnsBy returns parser trace)
    (answers : ∀ start inner, parser start = some inner → ∃ reply, treated start = some reply) :
    ReturnsBy returns treated trace := by
  intro start entered
  obtain ⟨inner, replied⟩ := parser_ok start entered
  exact answers start inner replied

theorem ReturnsBy.map (f : α → β) (parser_ok : ReturnsBy returns parser trace) :
    ReturnsBy returns (Runner.map f parser) trace :=
  parser_ok.through fun _ inner replied => ⟨inner.map f, by simp [Runner.map, replied]⟩

theorem ReturnsBy.tryMap (f : α → Except String β) (parser_ok : ReturnsBy returns parser trace) :
    ReturnsBy returns (Runner.tryMap f parser) trace := by
  apply parser_ok.through
  intro start inner replied
  cases inner with
  | done remaining output => cases judged : f output <;> simp [Runner.tryMap, replied, judged]
  | fail => simp [Runner.tryMap, replied]

theorem ReturnsBy.attempt (parser_ok : ReturnsBy returns parser trace) :
    ReturnsBy returns (Runner.attempt parser) trace := by
  apply parser_ok.through
  intro start inner replied
  cases inner <;> simp [Runner.attempt, replied]

theorem ReturnsBy.label (name : String) (parser_ok : ReturnsBy returns parser trace) :
    ReturnsBy returns (Runner.label name parser) trace := by
  apply parser_ok.through
  intro start inner replied
  cases inner <;> simp [Runner.label, replied]

theorem ReturnsBy.lookAhead (parser_ok : ReturnsBy returns parser trace) :
    ReturnsBy returns (Runner.lookAhead parser) trace := by
  apply parser_ok.through
  intro start inner replied
  cases inner <;> simp [Runner.lookAhead, replied]

theorem ReturnsBy.notFollowedBy (parser_ok : ReturnsBy returns parser trace) :
    ReturnsBy returns (Runner.notFollowedBy parser) trace := by
  apply parser_ok.through
  intro start inner replied
  cases inner <;> simp [Runner.notFollowedBy, replied]

theorem ReturnsBy.recognize (parser_ok : ReturnsBy returns parser trace) :
    ReturnsBy returns (Runner.recognize parser) trace := by
  apply parser_ok.through
  intro start inner replied
  cases inner <;> simp [Runner.recognize, replied]

end

section

variable {first : Runner α} {second : Runner β} {trace trace' : Trace N}

theorem ReturnsBy.bind {next : α → Runner β} {nextTrace : α → Trace N}
    (first_ok : ReturnsBy returns first trace)
    (next_ok : ∀ output, ReturnsBy returns (next output) (nextTrace output)) :
    ReturnsBy returns (Runner.bind first next) (.sequence first trace nextTrace) := by
  intro start entered
  obtain ⟨inner, replied⟩ := first_ok start fun entry here => entered entry (.inl here)
  cases inner with
  | done remaining output =>
    obtain ⟨reply, continued⟩ := next_ok output remaining fun entry there =>
      entered entry (.inr ⟨remaining, output, replied, there⟩)
    exact ⟨reply, bind_eq_some_iff.mpr (.inl ⟨remaining, output, replied, continued⟩)⟩
  | fail remaining contexts message =>
    exact ⟨_, bind_eq_some_iff.mpr (.inr ⟨remaining, contexts, message, replied, rfl⟩)⟩

theorem ReturnsBy.seqRight (first_ok : ReturnsBy returns first trace)
    (second_ok : ReturnsBy returns second trace') :
    ReturnsBy returns (Runner.seqRight first second) (.sequence first trace fun _ => trace') :=
  .bind first_ok fun _ => second_ok

theorem ReturnsBy.zip (first_ok : ReturnsBy returns first trace)
    (second_ok : ReturnsBy returns second trace') :
    ReturnsBy returns (Runner.zip first second) (.sequence first trace fun _ => trace') :=
  .bind first_ok fun output => second_ok.map fun other => (output, other)

theorem ReturnsBy.orElse {second : Runner α} (first_ok : ReturnsBy returns first trace)
    (second_ok : ReturnsBy returns second trace') :
    ReturnsBy returns (Runner.orElse first second) (.alternative first trace trace') := by
  intro start entered
  obtain ⟨inner, replied⟩ := first_ok start fun entry here => entered entry (.inl here)
  by_cases skipped : inner.failsAt start = true
  · obtain ⟨reply, other⟩ := second_ok start fun entry there =>
      entered entry (.inr ⟨inner, replied, skipped, there⟩)
    exact ⟨reply, orElse_eq_some_iff.mpr ⟨inner, replied, by rwa [if_pos skipped]⟩⟩
  · exact ⟨inner, orElse_eq_some_iff.mpr ⟨inner, replied, by rw [if_neg skipped]⟩⟩

theorem ReturnsBy.optional (first_ok : ReturnsBy returns first trace) :
    ReturnsBy returns (Runner.optional first) trace := by
  apply first_ok.through
  intro start inner replied
  cases inner with
  | done => simp [Runner.optional, replied]
  | fail remaining contexts message =>
    by_cases moved : remaining.movedFrom start = true <;> simp [Runner.optional, replied, moved]

end

section

variable {item : Runner β} {separator : Runner γ} {trace trace' : Trace N}

theorem ReturnsBy.repeatFrom_returns (forward : item.Forward)
    (item_ok : ReturnsBy returns item trace) (absorb : α → β → α) {rounds : List Char}
    {current : Cursor} (gathered : α) (enough : current.ahead.length ≤ rounds.length)
    (entered : ∀ entry, Trace.rounds item trace current entry → returns entry) :
    ∃ reply, Runner.repeatFrom item absorb rounds current gathered = some reply := by
  obtain ⟨inner, replied⟩ := item_ok current fun entry here =>
    entered entry ⟨current, .first current, here⟩
  by_cases moved : inner.remaining.movedFrom current = true
  · cases inner with
    | fail remaining contexts message =>
      exact ⟨_, repeatFrom_eq_some_iff.mpr (.inl ⟨_, contexts, message, replied, moved, rfl⟩)⟩
    | done remaining output =>
      -- The round has taken a character, so there is a round for each character left.
      have shorter := (forward current _ replied).length_lt moved
      simp only [Reply.remaining] at shorter
      cases rounds with
      | nil =>
        simp only [List.length_nil] at enough
        omega
      | cons round rounds =>
        simp only [List.length_cons] at enough
        have enough' : remaining.ahead.length ≤ rounds.length := by omega
        have entered' : ∀ entry, Trace.rounds item trace remaining entry → returns entry := by
          rintro entry ⟨place, later, there⟩
          exact entered entry ⟨place, .later replied moved later, there⟩
        obtain ⟨reply, continued⟩ := item_ok.repeatFrom_returns forward absorb
          (absorb gathered output) enough' entered'
        exact ⟨reply, repeatFrom_eq_some_iff.mpr
          (.inr (.inr ⟨remaining, output, round, rounds, replied, moved, rfl, continued⟩))⟩
  · have stays : inner.remaining.movedFrom current = false := by simpa using moved
    exact ⟨_, repeatFrom_eq_some_iff.mpr (.inr (.inl ⟨inner, replied, stays, rfl⟩))⟩
termination_by rounds.length

theorem ReturnsBy.repeatFrom (forward : item.Forward) (item_ok : ReturnsBy returns item trace)
    (absorb : α → β → α) (gathered : α) :
    ReturnsBy returns (fun start => Runner.repeatFrom item absorb start.ahead start gathered)
      (.rounds item trace) :=
  fun _ entered => item_ok.repeatFrom_returns forward absorb gathered (Nat.le_refl _) entered

theorem ReturnsBy.collectFrom (forward : item.Forward) (item_ok : ReturnsBy returns item trace)
    (items : List β) : ReturnsBy returns (Runner.collectFrom item items) (.rounds item trace) :=
  (item_ok.repeatFrom forward (fun items output => output :: items) items).map List.reverse

theorem ReturnsBy.many (forward : item.Forward) (item_ok : ReturnsBy returns item trace) :
    ReturnsBy returns (Runner.many item) (.rounds item trace) :=
  item_ok.collectFrom forward []

theorem ReturnsBy.many1 (forward : item.Forward) (item_ok : ReturnsBy returns item trace) :
    ReturnsBy returns (Runner.many1 item) (.sequence item trace fun _ => .rounds item trace) :=
  .bind item_ok fun output => item_ok.collectFrom forward [output]

theorem ReturnsBy.countFrom (item_ok : ReturnsBy returns item trace) (n : Nat) (items : List β) :
    ReturnsBy returns (fun current => Runner.countFrom item n current items)
      (.counted item trace n) := by
  induction n generalizing items with
  | zero => exact returnsBy_of_total _ (fun _ => rfl) _
  | succ n ih =>
    rw [countFrom_succ]
    exact .bind item_ok fun output => ih (output :: items)

theorem ReturnsBy.count (n : Nat) (item_ok : ReturnsBy returns item trace) :
    ReturnsBy returns (Runner.count n item) (.counted item trace n) :=
  item_ok.countFrom n []

theorem ReturnsBy.sepBy1 (forward : item.Forward) (forward' : separator.Forward)
    (item_ok : ReturnsBy returns item trace) (separator_ok : ReturnsBy returns separator trace') :
    ReturnsBy returns (Runner.sepBy1 item separator)
      (.sequence item trace fun _ => .rounds (Runner.seqRight separator item)
        (.sequence separator trace' fun _ => trace)) :=
  .bind item_ok fun output =>
    (separator_ok.seqRight item_ok).collectFrom (forward'.seqRight forward) [output]

theorem ReturnsBy.sepBy (forward : item.Forward) (forward' : separator.Forward)
    (item_ok : ReturnsBy returns item trace) (separator_ok : ReturnsBy returns separator trace') :
    ReturnsBy returns (Runner.sepBy item separator)
      (.sequence item trace fun _ => .rounds (Runner.seqRight separator item)
        (.sequence separator trace' fun _ => trace)) := by
  apply (item_ok.sepBy1 forward forward' separator_ok).through
  intro start inner replied
  by_cases skipped : inner.failsAt start = true <;> simp [Runner.sepBy, replied, skipped]

theorem ReturnsBy.chainl1 {operator : Runner (β → β → β)} (forward : item.Forward)
    (forward' : operator.Forward) (item_ok : ReturnsBy returns item trace)
    (operator_ok : ReturnsBy returns operator trace') :
    ReturnsBy returns (Runner.chainl1 item operator)
      (.sequence item trace fun _ => .rounds (Runner.zip operator item)
        (.sequence operator trace' fun _ => trace)) := by
  rw [chainl1_eq_bind]
  exact .bind item_ok fun output =>
    (operator_ok.zip item_ok).repeatFrom (forward'.zip forward) _ output

end

end Runner

namespace Parser

open CombinatorJson.Runner

variable {N : Type → Type} {call : {β : Type} → N β → Runner β}

theorem eval_returns (forward : ∀ {β : Type} (name : N β), (call name).Forward) {α : Type}
    {parser : Parser N α} (ends : parser.EndsLoops) {start : Cursor}
    (entered : ∀ entry, parser.Enters call start entry →
      ∃ reply, call entry.name entry.place = some reply) :
    ∃ reply, parser.eval call start = some reply := by
  have forwards {β : Type} (part : Parser N β) : (part.eval call).Forward :=
    eval_forward forward part
  revert start
  change ReturnsBy _ (parser.eval call) (parser.Enters call)
  induction parser with
  | satisfy accepts => exact returnsBy_satisfy accepts _
  | endOfInput => exact returnsBy_endOfInput _
  | takeWhile1 accepts => exact returnsBy_takeWhile1 accepts _
  | pure | fail | literal | takeWhile => exact returnsBy_of_total _ (fun _ => rfl) _
  | ref name => exact fun start entered => entered ⟨name, start⟩ rfl
  | map f _ ih => exact (ih ends).map f
  | tryMap f _ ih => exact (ih ends).tryMap f
  | attempt _ ih => exact (ih ends).attempt
  | label name _ ih => exact (ih ends).label name
  | lookAhead _ ih => exact (ih ends).lookAhead
  | notFollowedBy _ ih => exact (ih ends).notFollowedBy
  | recognize _ ih => exact (ih ends).recognize
  | optional _ ih => exact (ih ends).optional
  | bind _ _ ih ih' => exact (ih ends.1).bind fun output => ih' output (ends.2 output)
  | seqRight _ _ ih ih' => exact (ih ends.1).seqRight (ih' ends.2)
  | zip _ _ ih ih' => exact (ih ends.1).zip (ih' ends.2)
  | orElse _ _ ih ih' => exact (ih ends.1).orElse (ih' ends.2)
  | many _ ih => exact (ih ends).many (forwards _)
  | many1 _ ih => exact (ih ends).many1 (forwards _)
  | count n _ ih => exact (ih ends).count n
  | manyTill => exact ends.elim
  | sepBy _ _ ih ih' => exact (ih ends.1).sepBy (forwards _) (forwards _) (ih' ends.2)
  | sepBy1 _ _ ih ih' => exact (ih ends.1).sepBy1 (forwards _) (forwards _) (ih' ends.2)
  | chainl1 _ _ ih ih' => exact (ih ends.1).chainl1 (forwards _) (forwards _) (ih' ends.2)

end Parser

end CombinatorJson
