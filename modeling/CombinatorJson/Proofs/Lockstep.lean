import CombinatorJson.Parser
import CombinatorJson.Proofs.Forward

/-!
A parser looks at the text ahead, at whether a reply has moved, and at the text taken since an
earlier place. Where none of these tells two places apart, no combinator does, and no parser.
-/

set_option autoImplicit false

namespace CombinatorJson

/-- Corresponding places are the same to a parser: the same text is ahead of them, and they stay
in step as both runs move on. -/
structure Correspondence.Laws (Place : Cursor → Cursor → Prop)
    (Contexts : List String → List String → Prop) : Prop where
  ahead_eq : ∀ {left right}, Place left right → left.ahead = right.ahead
  advance : ∀ {left right} (count : Nat), Place left right →
    Place (left.advance count) (right.advance count)
  movedFrom_eq : ∀ {origin origin' left right}, Place origin origin' → Place left right →
    left.movedFrom origin = right.movedFrom origin'
  consumedSince_eq : ∀ {origin origin' left right}, Place origin origin' → Place left right →
    left.consumedSince origin = right.consumedSince origin'
  noContexts : Contexts [] []

structure Correspondence where
  Place : Cursor → Cursor → Prop
  Contexts : List String → List String → Prop
  laws : Correspondence.Laws Place Contexts

def Correspondence.flip (R : Correspondence) : Correspondence where
  Place left right := R.Place right left
  Contexts contexts contexts' := R.Contexts contexts' contexts
  laws :=
    { ahead_eq := fun place => (R.laws.ahead_eq place).symm
      advance := fun count place => R.laws.advance count place
      movedFrom_eq := fun origin place => (R.laws.movedFrom_eq origin place).symm
      consumedSince_eq := fun origin place => (R.laws.consumedSince_eq origin place).symm
      noContexts := R.laws.noContexts }

namespace Reply

variable {α : Type} {Place Place' : Cursor → Cursor → Prop}
  {Contexts : List String → List String → Prop} {reply reply' : Reply α}

inductive Alike (Place : Cursor → Cursor → Prop) (Contexts : List String → List String → Prop) :
    Reply α → Reply α → Prop where
  | done {left right : Cursor} (output : α) (place : Place left right) :
      Alike Place Contexts (.done left output) (.done right output)
  | fail {left right : Cursor} {contexts contexts' : List String} (message : String)
      (place : Place left right) (labelled : Contexts contexts contexts') :
      Alike Place Contexts (.fail left contexts message) (.fail right contexts' message)

theorem Alike.remaining (alike : reply.Alike Place Contexts reply') :
    Place reply.remaining reply'.remaining := by
  cases alike with
  | done output place => exact place
  | fail message place labelled => exact place

theorem Alike.mono (alike : reply.Alike Place Contexts reply')
    (weaker : ∀ left right, Place left right → Place' left right) :
    reply.Alike Place' Contexts reply' := by
  cases alike with
  | done output place => exact .done output (weaker _ _ place)
  | fail message place labelled => exact .fail message (weaker _ _ place) labelled

theorem Alike.rel_mono {replied replied' : Option (Reply α)}
    (both : Option.Rel (Alike Place Contexts) replied replied')
    (weaker : ∀ left right, Place left right → Place' left right) :
    Option.Rel (Alike Place' Contexts) replied replied' := by
  cases both with
  | none => exact .none
  | some alike => exact .some (alike.mono weaker)

theorem Alike.flip {R : Correspondence} (alike : reply.Alike R.Place R.Contexts reply') :
    reply'.Alike R.flip.Place R.flip.Contexts reply := by
  cases alike with
  | done output place => exact .done output place
  | fail message place labelled => exact .fail message place labelled

theorem Alike.failsAt_eq {R : Correspondence} {start start' : Cursor}
    (alike : reply.Alike R.Place R.Contexts reply') (place : R.Place start start') :
    reply.failsAt start = reply'.failsAt start' := by
  cases alike with
  | done output place' => rfl
  | fail message place' labelled => rw [failsAt, failsAt, R.laws.movedFrom_eq place place']

end Reply

namespace Runner

variable {α β γ : Type} {R : Correspondence} {start start' : Cursor}

abbrev Correspond (R : Correspondence) : Option (Reply α) → Option (Reply α) → Prop :=
  Option.Rel (Reply.Alike R.Place R.Contexts)

def Lockstep (R : Correspondence) (left right : Runner α) : Prop :=
  ∀ start start', R.Place start start' → Correspond R (left start) (right start')

theorem Lockstep.replies {left right : Runner α} (step : Lockstep R left right)
    (place : R.Place start start') :
    (left start = none ∧ right start' = none) ∨
    ∃ reply reply', left start = some reply ∧ right start' = some reply' ∧
      reply.Alike R.Place R.Contexts reply' := by
  have both := step start start' place
  cases replied : left start <;> cases replied' : right start' <;> rw [replied, replied'] at both
  · exact .inl ⟨rfl, rfl⟩
  · contradiction
  · contradiction
  · cases both with
    | some alike => exact .inr ⟨_, _, rfl, rfl, alike⟩

theorem Lockstep.exists_alike {left right : Runner α} (step : Lockstep R left right)
    (place : R.Place start start') {reply : Reply α} (given : left start = some reply) :
    ∃ reply', right start' = some reply' ∧ reply.Alike R.Place R.Contexts reply' := by
  rcases step.replies place with ⟨silent, -⟩ | ⟨_, reply', replied, replied', alike⟩
  · cases given.symm.trans silent
  · cases given.symm.trans replied
    exact ⟨reply', replied', alike⟩

theorem Lockstep.flip {left right : Runner α} (step : Lockstep R left right) :
    Lockstep R.flip right left := by
  intro start' start place
  rcases step.replies place with ⟨replied, replied'⟩ | ⟨_, _, replied, replied', alike⟩ <;>
    rw [replied, replied']
  · exact .none
  · exact .some alike.flip

theorem Correspond.failAt {message : String} (place : R.Place start start') :
    Correspond R (some (.failAt start message : Reply α)) (some (.failAt start' message)) :=
  .some (.fail message place R.laws.noContexts)

theorem peek?_eq (place : R.Place start start') : start.peek? = start'.peek? :=
  congrArg List.head? (R.laws.ahead_eq place)

theorem lockstep_satisfy (accepts : Char → Bool) :
    Lockstep R (satisfy accepts) (satisfy accepts) := by
  intro start start' place
  unfold satisfy
  rw [peek?_eq place]
  split
  · split
    · exact .some (.done _ (R.laws.advance 1 place))
    · exact .failAt place
  · exact .failAt place

theorem lockstep_pure (value : α) : Lockstep R (pure value) (pure value) :=
  fun _ _ place => .some (.done value place)

theorem lockstep_fail (message : String) : Lockstep R (fail message : Runner α) (fail message) :=
  fun _ _ place => .failAt place

theorem lockstep_endOfInput : Lockstep R endOfInput endOfInput := by
  intro start start' place
  unfold endOfInput Cursor.atEnd
  rw [R.laws.ahead_eq place]
  split
  · exact .some (.done () place)
  · exact .failAt place

theorem alike_literalFrom (output : String) (expected : List Char)
    (place : R.Place start start') :
    (literalFrom output expected start).Alike R.Place R.Contexts
      (literalFrom output expected start') := by
  induction expected generalizing start start' with
  | nil => exact .done output place
  | cons c rest ih =>
    rw [literalFrom, literalFrom, peek?_eq place]
    split
    · exact ih (R.laws.advance 1 place)
    · exact .fail "satisfy" place R.laws.noContexts

theorem lockstep_literal (expected : String) :
    Lockstep R (literal expected) (literal expected) :=
  fun _ _ place => .some (alike_literalFrom expected expected.toList place)

theorem lockstep_takeWhile (accepts : Char → Bool) :
    Lockstep R (takeWhile accepts) (takeWhile accepts) := by
  intro start start' place
  unfold takeWhile
  rw [R.laws.ahead_eq place]
  have place' := R.laws.advance (start'.ahead.takeWhile accepts).length place
  simp only [R.laws.consumedSince_eq place place']
  exact .some (.done _ place')

theorem lockstep_takeWhile1 (accepts : Char → Bool) :
    Lockstep R (takeWhile1 accepts) (takeWhile1 accepts) := by
  intro start start' place
  unfold takeWhile1
  rw [peek?_eq place]
  split
  · split
    · exact lockstep_takeWhile accepts start start' place
    · exact .failAt place
  · exact .failAt place

section

variable {left right : Runner α}

theorem Lockstep.map (f : α → β) (step : Lockstep R left right) :
    Lockstep R (Runner.map f left) (Runner.map f right) := by
  intro start start' place
  rcases step.replies place with ⟨replied, replied'⟩ | ⟨_, _, replied, replied', alike⟩ <;>
    simp only [Runner.map, replied, replied']
  · exact .none
  · cases alike with
    | done output place' => exact .some (.done (f output) place')
    | fail message place' labelled => exact .some (.fail message place' labelled)

theorem Lockstep.tryMap (f : α → Except String β) (step : Lockstep R left right) :
    Lockstep R (Runner.tryMap f left) (Runner.tryMap f right) := by
  intro start start' place
  rcases step.replies place with ⟨replied, replied'⟩ | ⟨_, _, replied, replied', alike⟩ <;>
    simp only [Runner.tryMap, replied, replied']
  · exact .none
  · cases alike with
    | done output place' =>
      cases judged : f output with
      | ok value => simpa only [judged] using .some (.done value place')
      | error message => simpa only [judged] using .failAt place
    | fail message place' labelled => exact .some (.fail message place' labelled)

theorem Lockstep.attempt (step : Lockstep R left right) :
    Lockstep R (Runner.attempt left) (Runner.attempt right) := by
  intro start start' place
  rcases step.replies place with ⟨replied, replied'⟩ | ⟨_, _, replied, replied', alike⟩ <;>
    simp only [Runner.attempt, replied, replied']
  · exact .none
  · cases alike with
    | done output place' => exact .some (.done output place')
    | fail message _ labelled => exact .some (.fail message place labelled)

theorem Lockstep.label (name : String) (step : Lockstep R left right)
    (keeps : ∀ contexts contexts', R.Contexts contexts contexts' →
      R.Contexts (name :: contexts) (name :: contexts')) :
    Lockstep R (Runner.label name left) (Runner.label name right) := by
  intro start start' place
  rcases step.replies place with ⟨replied, replied'⟩ | ⟨_, _, replied, replied', alike⟩ <;>
    simp only [Runner.label, replied, replied']
  · exact .none
  · cases alike with
    | done output place' => exact .some (.done output place')
    | fail message place' labelled => exact .some (.fail message place' (keeps _ _ labelled))

theorem Lockstep.label_left (name : String) (step : Lockstep R left right)
    (drops : ∀ contexts contexts', R.Contexts contexts contexts' →
      R.Contexts (name :: contexts) contexts') :
    Lockstep R (Runner.label name left) right := by
  intro start start' place
  rcases step.replies place with ⟨replied, replied'⟩ | ⟨_, _, replied, replied', alike⟩ <;>
    simp only [Runner.label, replied, replied']
  · exact .none
  · cases alike with
    | done output place' => exact .some (.done output place')
    | fail message place' labelled => exact .some (.fail message place' (drops _ _ labelled))

theorem Lockstep.lookAhead (step : Lockstep R left right) :
    Lockstep R (Runner.lookAhead left) (Runner.lookAhead right) := by
  intro start start' place
  rcases step.replies place with ⟨replied, replied'⟩ | ⟨_, _, replied, replied', alike⟩ <;>
    simp only [Runner.lookAhead, replied, replied']
  · exact .none
  · cases alike with
    | done output _ => exact .some (.done output place)
    | fail message place' labelled => exact .some (.fail message place' labelled)

theorem Lockstep.notFollowedBy (step : Lockstep R left right) :
    Lockstep R (Runner.notFollowedBy left) (Runner.notFollowedBy right) := by
  intro start start' place
  rcases step.replies place with ⟨replied, replied'⟩ | ⟨_, _, replied, replied', alike⟩ <;>
    simp only [Runner.notFollowedBy, replied, replied']
  · exact .none
  · cases alike with
    | done => exact .failAt place
    | fail => exact .some (.done () place)

theorem Lockstep.recognize (step : Lockstep R left right) :
    Lockstep R (Runner.recognize left) (Runner.recognize right) := by
  intro start start' place
  rcases step.replies place with ⟨replied, replied'⟩ | ⟨_, _, replied, replied', alike⟩ <;>
    simp only [Runner.recognize, replied, replied']
  · exact .none
  · cases alike with
    | done output place' =>
      simp only [R.laws.consumedSince_eq place place']
      exact .some (.done _ place')
    | fail message place' labelled => exact .some (.fail message place' labelled)

end

section

variable {first first' : Runner α} {second second' : Runner β}

theorem Lockstep.bind {next next' : α → Runner β} (step : Lockstep R first first')
    (step' : ∀ output, Lockstep R (next output) (next' output)) :
    Lockstep R (Runner.bind first next) (Runner.bind first' next') := by
  intro start start' place
  rcases step.replies place with ⟨replied, replied'⟩ | ⟨_, _, replied, replied', alike⟩ <;>
    simp only [Runner.bind, replied, replied']
  · exact .none
  · cases alike with
    | done output place' => exact step' output _ _ place'
    | fail message place' labelled => exact .some (.fail message place' labelled)

theorem Lockstep.seqRight (step : Lockstep R first first') (step' : Lockstep R second second') :
    Lockstep R (Runner.seqRight first second) (Runner.seqRight first' second') :=
  .bind step fun _ => step'

theorem Lockstep.zip (step : Lockstep R first first') (step' : Lockstep R second second') :
    Lockstep R (Runner.zip first second) (Runner.zip first' second') :=
  .bind step fun output => step'.map fun other => (output, other)

theorem Lockstep.orElse {second second' : Runner α} (step : Lockstep R first first')
    (step' : Lockstep R second second') :
    Lockstep R (Runner.orElse first second) (Runner.orElse first' second') := by
  intro start start' place
  rcases step.replies place with ⟨replied, replied'⟩ | ⟨_, _, replied, replied', alike⟩ <;>
    simp only [Runner.orElse, replied, replied']
  · exact .none
  · -- Either both failures are recovered or neither is.
    simp only [alike.failsAt_eq place]
    split
    · exact step' start start' place
    · exact .some alike

theorem Lockstep.optional (step : Lockstep R first first') :
    Lockstep R (Runner.optional first) (Runner.optional first') := by
  rw [optional_eq_orElse, optional_eq_orElse]
  exact (step.map some).orElse (lockstep_pure none)

end

section

variable {item item' : Runner β} {separator separator' : Runner γ}

theorem Lockstep.repeatFrom_correspond (step : Lockstep R item item') (absorb : α → β → α)
    (rounds : List Char) (gathered : α) {start start' : Cursor} (place : R.Place start start') :
    Correspond R (Runner.repeatFrom item absorb rounds start gathered)
      (Runner.repeatFrom item' absorb rounds start' gathered) := by
  -- Round by round: both runs go on from corresponding places, or both end.
  rw [Runner.repeatFrom, Runner.repeatFrom]
  rcases step.replies place with ⟨replied, replied'⟩ | ⟨_, _, replied, replied', alike⟩ <;>
    simp only [replied, replied']
  · exact .none
  · simp only [R.laws.movedFrom_eq place alike.remaining]
    split
    · cases alike with
      | fail message place' labelled => exact .some (.fail message place' labelled)
      | done output place' =>
        cases rounds with
        | nil => exact .none
        | cons round rounds =>
          exact step.repeatFrom_correspond absorb rounds (absorb gathered output) place'
    · exact .some (.done gathered place)
termination_by rounds.length

theorem Lockstep.repeatFrom (step : Lockstep R item item') (absorb : α → β → α) (gathered : α) :
    Lockstep R (fun start => Runner.repeatFrom item absorb start.ahead start gathered)
      fun start => Runner.repeatFrom item' absorb start.ahead start gathered := by
  intro start start' place
  simp only [R.laws.ahead_eq place]
  exact step.repeatFrom_correspond absorb start'.ahead gathered place

theorem Lockstep.collectFrom (step : Lockstep R item item') (items : List β) :
    Lockstep R (Runner.collectFrom item items) (Runner.collectFrom item' items) :=
  (step.repeatFrom (fun items output => output :: items) items).map List.reverse

theorem Lockstep.many (step : Lockstep R item item') :
    Lockstep R (Runner.many item) (Runner.many item') :=
  step.collectFrom []

theorem Lockstep.many1 (step : Lockstep R item item') :
    Lockstep R (Runner.many1 item) (Runner.many1 item') :=
  .bind step fun output => step.collectFrom [output]

theorem Lockstep.countFrom (step : Lockstep R item item') (n : Nat) (items : List β) :
    Lockstep R (fun current => Runner.countFrom item n current items)
      fun current => Runner.countFrom item' n current items := by
  induction n generalizing items with
  | zero => exact lockstep_pure items.reverse
  | succ n ih =>
    rw [countFrom_succ, countFrom_succ]
    exact step.bind fun output => ih (output :: items)

theorem Lockstep.count (n : Nat) (step : Lockstep R item item') :
    Lockstep R (Runner.count n item) (Runner.count n item') :=
  step.countFrom n []

theorem Lockstep.absent (step : Lockstep R separator separator') (place : R.Place start start')
    (absent : separator.Absent start) : separator'.Absent start' := by
  obtain ⟨stop, stopped, stays⟩ := absent
  obtain ⟨stop', stopped', alike⟩ := step.exists_alike place stopped
  exact ⟨stop', stopped', alike.failsAt_eq place ▸ stays⟩

theorem Lockstep.concludes (step : Lockstep R item item') (step' : Lockstep R separator separator')
    {items : List β} {reply : Reply (List β)} (place : R.Place start start')
    (concludes : Concludes item separator start items reply) :
    ∃ reply', Concludes item' separator' start' items reply' ∧
      reply.Alike R.Place R.Contexts reply' := by
  cases concludes with
  | found matched =>
    obtain ⟨_, matched', alike⟩ := step'.exists_alike place matched
    cases alike with
    | done _ place' => exact ⟨_, .found matched', .done items place'⟩
  | broken failed moved =>
    obtain ⟨_, failed', alike⟩ := step'.exists_alike place failed
    cases alike with
    | fail _ place' labelled =>
      rw [R.laws.movedFrom_eq place place'] at moved
      exact ⟨_, .broken failed' moved, .fail _ place' labelled⟩
  | refused absent failed =>
    obtain ⟨_, failed', alike⟩ := step.exists_alike place failed
    cases alike with
    | fail _ place' labelled =>
      exact ⟨_, .refused (step'.absent place absent) failed', .fail _ place' labelled⟩

theorem Lockstep.exists_manyTill (step : Lockstep R item item')
    (step' : Lockstep R separator separator') {reply : Reply (List β)}
    (place : R.Place start start') (given : Runner.manyTill item separator start = some reply) :
    ∃ reply', Runner.manyTill item' separator' start' = some reply' ∧
      reply.Alike R.Place R.Contexts reply' := by
  obtain ⟨outputs, last, path, concludes⟩ := manyTill_eq_some_iff.mp given
  have keepsUp {start start' output middle} (place : R.Place start start')
      (approaches : Approaches item separator start output middle) :
      ∃ middle', Approaches item' separator' start' output middle' ∧ R.Place middle middle' := by
    obtain ⟨_, replied', alike⟩ := step.exists_alike place approaches.2
    cases alike with
    | done _ place' => exact ⟨_, ⟨step'.absent place approaches.1, replied'⟩, place'⟩
  obtain ⟨last', path', place'⟩ := path.simulate keepsUp place
  obtain ⟨reply', concludes', alike⟩ := step.concludes step' place' concludes
  exact ⟨reply', manyTill_eq_some_iff.mpr ⟨outputs, last', path', concludes'⟩, alike⟩

theorem Lockstep.manyTill (step : Lockstep R item item')
    (step' : Lockstep R separator separator') :
    Lockstep R (Runner.manyTill item separator) (Runner.manyTill item' separator') := by
  intro start start' place
  -- Nothing bounds the rounds, so that each of the runs has to be followed by the other.
  cases given : Runner.manyTill item separator start with
  | some reply =>
    obtain ⟨reply', given', alike⟩ := step.exists_manyTill step' place given
    exact given' ▸ .some alike
  | none =>
    cases given' : Runner.manyTill item' separator' start' with
    | none => exact .none
    | some reply' =>
      obtain ⟨reply, returned, -⟩ := step.flip.exists_manyTill step'.flip place given'
      cases given.symm.trans returned

theorem Lockstep.sepBy1 (step : Lockstep R item item')
    (step' : Lockstep R separator separator') :
    Lockstep R (Runner.sepBy1 item separator) (Runner.sepBy1 item' separator') :=
  .bind step fun output => (step'.seqRight step).collectFrom [output]

theorem Lockstep.sepBy (step : Lockstep R item item')
    (step' : Lockstep R separator separator') :
    Lockstep R (Runner.sepBy item separator) (Runner.sepBy item' separator') := by
  rw [sepBy_eq_orElse, sepBy_eq_orElse]
  exact (step.sepBy1 step').orElse (lockstep_pure [])

theorem Lockstep.chainl1 {operator operator' : Runner (β → β → β)}
    (step : Lockstep R item item') (step' : Lockstep R operator operator') :
    Lockstep R (Runner.chainl1 item operator) (Runner.chainl1 item' operator') := by
  rw [chainl1_eq_bind, chainl1_eq_bind]
  exact step.bind fun output => (step'.zip step).repeatFrom _ output

end

end Runner

namespace Parser

open CombinatorJson.Runner

variable {N : Type → Type} {R : Correspondence}

section

variable (keeps : ∀ name contexts contexts', R.Contexts contexts contexts' →
  R.Contexts (name :: contexts) (name :: contexts'))

include keeps

theorem eval_lockstep {call : {β : Type} → N β → Runner β}
    (step : ∀ {β : Type} (name : N β), Lockstep R (call name) (call name)) {α : Type}
    (parser : Parser N α) : Lockstep R (parser.eval call) (parser.eval call) := by
  induction parser with
  | satisfy accepts => exact lockstep_satisfy accepts
  | pure value => exact lockstep_pure value
  | fail message => exact lockstep_fail message
  | endOfInput => exact lockstep_endOfInput
  | literal expected => exact lockstep_literal expected
  | takeWhile accepts => exact lockstep_takeWhile accepts
  | takeWhile1 accepts => exact lockstep_takeWhile1 accepts
  | ref name => exact step name
  | map f _ ih => exact ih.map f
  | tryMap f _ ih => exact ih.tryMap f
  | bind _ _ ih ih' => exact ih.bind ih'
  | seqRight _ _ ih ih' => exact ih.seqRight ih'
  | zip _ _ ih ih' => exact ih.zip ih'
  | orElse _ _ ih ih' => exact ih.orElse ih'
  | attempt _ ih => exact ih.attempt
  | label name _ ih => exact ih.label name (keeps name)
  | lookAhead _ ih => exact ih.lookAhead
  | notFollowedBy _ ih => exact ih.notFollowedBy
  | recognize _ ih => exact ih.recognize
  | optional _ ih => exact ih.optional
  | many _ ih => exact ih.many
  | many1 _ ih => exact ih.many1
  | count n _ ih => exact ih.count n
  | manyTill _ _ ih ih' => exact ih.manyTill ih'
  | sepBy _ _ ih ih' => exact ih.sepBy ih'
  | sepBy1 _ _ ih ih' => exact ih.sepBy1 ih'
  | chainl1 _ _ ih ih' => exact ih.chainl1 ih'

theorem run_lockstep (rules : {β : Type} → N β → Parser N β) (depth : Nat) {α : Type}
    (parser : Parser N α) : Lockstep R (parser.run rules depth) (parser.run rules depth) := by
  induction depth generalizing α with
  | zero => exact eval_lockstep keeps (fun _ _ _ _ => .none) parser
  | succ depth ih => exact eval_lockstep keeps (fun name => ih (rules name)) parser

end

end Parser

end CombinatorJson
