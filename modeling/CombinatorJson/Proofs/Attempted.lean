import CombinatorJson.Proofs.Forward

set_option autoImplicit false

namespace CombinatorJson

namespace Runner

variable {α β γ : Type}

def Declines (parser : Runner α) (start : Cursor) : Prop :=
  ∃ contexts message, parser start = some (.fail start contexts message)

theorem failsAt_start (start : Cursor) (contexts : List String) (message : String) :
    (Reply.fail start contexts message : Reply α).failsAt start = true := by
  simp [Reply.failsAt, Cursor.movedFrom]

theorem Forward.declines {parser : Runner α} (forward : parser.Forward) {start : Cursor}
    {reply : Reply α} (given : parser start = some reply) (stays : reply.failsAt start = true) :
    parser.Declines start := by
  have reached := forward start reply given
  cases reply with
  | done remaining output => contradiction
  | fail remaining contexts message =>
    have here : remaining = start := reached.eq_of_not_moved (failsAt_iff_not_moved.mp stays)
    exact ⟨contexts, message, here ▸ given⟩

/-- Nothing is asked of the other parser where this one fails after moving. -/
structure CoveredBy (parser other : Runner α) : Prop where
  done : ∀ {start remaining output}, parser start = some (.done remaining output) →
    other start = some (.done remaining output)
  declines : ∀ {start}, parser.Declines start → other.Declines start

theorem CoveredBy.refl (parser : Runner α) : parser.CoveredBy parser :=
  ⟨fun given => given, fun given => given⟩

section

variable {parser other : Runner α}

theorem CoveredBy.attempt (covered : parser.CoveredBy other) :
    parser.CoveredBy (Runner.attempt other) where
  done given := by
    simp [Runner.attempt, covered.done given]
  declines given := by
    obtain ⟨contexts, message, failed⟩ := covered.declines given
    exact ⟨contexts, message, by simp [Runner.attempt, failed]⟩

theorem CoveredBy.through {treated : Runner α → Runner β}
    (silent : ∀ parser start, parser start = none → treated parser start = none)
    (pointwise : ∀ parser other start, parser start = other start →
      treated parser start = treated other start)
    (fails : ∀ parser start remaining contexts message,
      parser start = some (.fail remaining contexts message) →
      ∃ contexts', treated parser start = some (.fail remaining contexts' message))
    (covered : parser.CoveredBy other) : (treated parser).CoveredBy (treated other) where
  done {start remaining output} given := by
    cases replied : parser start with
    | none =>
      rw [silent parser start replied] at given
      contradiction
    | some inner =>
      cases inner with
      | done remaining' output' =>
        have same := pointwise parser other start (replied.trans (covered.done replied).symm)
        exact same ▸ given
      | fail remaining' contexts message =>
        obtain ⟨contexts', failed⟩ := fails parser start _ _ _ replied
        rw [failed] at given
        cases given
  declines {start} given := by
    obtain ⟨contexts, message, given⟩ := given
    cases replied : parser start with
    | none =>
      rw [silent parser start replied] at given
      contradiction
    | some inner =>
      cases inner with
      | done remaining' output' =>
        have same := pointwise parser other start (replied.trans (covered.done replied).symm)
        exact ⟨contexts, message, same ▸ given⟩
      | fail remaining' contexts' message' =>
        obtain ⟨_, failed⟩ := fails parser start _ _ _ replied
        rw [failed] at given
        cases given
        obtain ⟨_, _, declined⟩ := covered.declines ⟨_, _, replied⟩
        obtain ⟨_, failed'⟩ := fails other start _ _ _ declined
        exact ⟨_, _, failed'⟩

theorem CoveredBy.map (f : α → β) (covered : parser.CoveredBy other) :
    (Runner.map f parser).CoveredBy (Runner.map f other) :=
  covered.through (fun _ _ silent => by simp [Runner.map, silent])
    (fun _ _ _ same => by simp [Runner.map, same])
    (fun _ _ _ contexts _ failed => ⟨contexts, by simp [Runner.map, failed, Reply.map]⟩)

theorem CoveredBy.tryMap (f : α → Except String β) (covered : parser.CoveredBy other) :
    (Runner.tryMap f parser).CoveredBy (Runner.tryMap f other) :=
  covered.through (fun _ _ silent => by simp [Runner.tryMap, silent])
    (fun _ _ _ same => by simp [Runner.tryMap, same])
    (fun _ _ _ contexts _ failed => ⟨contexts, by simp [Runner.tryMap, failed]⟩)

theorem CoveredBy.label (name : String) (covered : parser.CoveredBy other) :
    (Runner.label name parser).CoveredBy (Runner.label name other) :=
  covered.through (fun _ _ silent => by simp [Runner.label, silent])
    (fun _ _ _ same => by simp [Runner.label, same])
    (fun _ _ _ contexts _ failed => ⟨name :: contexts, by simp [Runner.label, failed]⟩)

theorem CoveredBy.lookAhead (covered : parser.CoveredBy other) :
    (Runner.lookAhead parser).CoveredBy (Runner.lookAhead other) :=
  covered.through (fun _ _ silent => by simp [Runner.lookAhead, silent])
    (fun _ _ _ same => by simp [Runner.lookAhead, same])
    (fun _ _ _ contexts _ failed => ⟨contexts, by simp [Runner.lookAhead, failed]⟩)

theorem CoveredBy.recognize (covered : parser.CoveredBy other) :
    (Runner.recognize parser).CoveredBy (Runner.recognize other) :=
  covered.through (fun _ _ silent => by simp [Runner.recognize, silent])
    (fun _ _ _ same => by simp [Runner.recognize, same])
    (fun _ _ _ contexts _ failed => ⟨contexts, by simp [Runner.recognize, failed]⟩)

end

section

variable {first first' : Runner α} {second second' : Runner β}

theorem CoveredBy.bind {next next' : α → Runner β} (forward : first.Forward)
    (forward' : ∀ output, (next output).Forward) (covered : first.CoveredBy first')
    (covered' : ∀ output, (next output).CoveredBy (next' output)) :
    (Runner.bind first next).CoveredBy (Runner.bind first' next') where
  done given := by
    rcases bind_eq_some_iff.mp given with
      ⟨remaining, output, replied, continued⟩ | ⟨_, _, _, _, never⟩
    · have continued' := (covered' output).done continued
      exact bind_eq_some_iff.mpr (.inl ⟨remaining, output, covered.done replied, continued'⟩)
    · contradiction
  declines {start} given := by
    obtain ⟨contexts, message, given⟩ := given
    rcases bind_eq_some_iff.mp given with
      ⟨remaining, output, replied, continued⟩ | ⟨remaining, _, _, replied, ⟨⟩⟩
    · -- The second part ends at the start, so the first one has not moved from it either.
      have forth := forward start _ replied
      have back := forward' output remaining _ continued
      have here : remaining = start := forth.antisymm back
      subst here
      obtain ⟨contexts', message', continued'⟩ := (covered' output).declines ⟨_, _, continued⟩
      exact ⟨contexts', message',
        bind_eq_some_iff.mpr (.inl ⟨_, output, covered.done replied, continued'⟩)⟩
    · obtain ⟨contexts', message', declined⟩ := covered.declines ⟨_, _, replied⟩
      exact ⟨contexts', message', bind_eq_some_iff.mpr (.inr ⟨_, _, _, declined, rfl⟩)⟩

theorem CoveredBy.seqRight (forward : first.Forward) (forward' : second.Forward)
    (covered : first.CoveredBy first') (covered' : second.CoveredBy second') :
    (Runner.seqRight first second).CoveredBy (Runner.seqRight first' second') :=
  .bind forward (fun _ => forward') covered fun _ => covered'

theorem CoveredBy.zip (forward : first.Forward) (forward' : second.Forward)
    (covered : first.CoveredBy first') (covered' : second.CoveredBy second') :
    (Runner.zip first second).CoveredBy (Runner.zip first' second') :=
  .bind forward (fun output => forward'.map fun other => (output, other)) covered
    fun output => covered'.map fun other => (output, other)

theorem CoveredBy.orElse_reply {second' : Runner α} (covered : first.CoveredBy first')
    {start : Cursor} {inner reply : Reply α} (forward : first.Forward)
    (replied : first start = some inner) (skipped : inner.failsAt start = true)
    (other : second' start = some reply) :
    Runner.orElse first' second' start = some reply := by
  obtain ⟨contexts, message, declined⟩ := covered.declines (forward.declines replied skipped)
  exact orElse_eq_some_iff.mpr ⟨_, declined, by rwa [if_pos (failsAt_start ..)]⟩

theorem CoveredBy.orElse {second second' : Runner α} (forward : first.Forward)
    (covered : first.CoveredBy first') (covered' : second.CoveredBy second') :
    (Runner.orElse first second).CoveredBy (Runner.orElse first' second') where
  done given := by
    obtain ⟨inner, replied, chosen⟩ := orElse_eq_some_iff.mp given
    split at chosen
    · next skipped => exact covered.orElse_reply forward replied skipped (covered'.done chosen)
    · subst chosen
      exact orElse_eq_some_iff.mpr ⟨_, covered.done replied, rfl⟩
  declines given := by
    obtain ⟨contexts, message, given⟩ := given
    obtain ⟨inner, replied, chosen⟩ := orElse_eq_some_iff.mp given
    split at chosen
    · next skipped =>
      obtain ⟨contexts', message', declined⟩ := covered'.declines ⟨_, _, chosen⟩
      exact ⟨contexts', message', covered.orElse_reply forward replied skipped declined⟩
    · next kept =>
      subst chosen
      exact absurd (failsAt_start ..) kept

theorem CoveredBy.optional (forward : first.Forward) (covered : first.CoveredBy first') :
    (Runner.optional first).CoveredBy (Runner.optional first') := by
  rw [optional_eq_orElse, optional_eq_orElse]
  exact .orElse (forward.map some) (covered.map some) (.refl _)

end

section

variable {item item' : Runner β} {separator separator' : Runner γ}

theorem Forward.lt_of_repeatFrom_fail (forward : item.Forward) {absorb : α → β → α}
    {rounds : List Char} {current remaining : Cursor} {gathered : α} {contexts : List String}
    {message : String} (given : Runner.repeatFrom item absorb rounds current gathered =
      some (.fail remaining contexts message)) : current.offset < remaining.offset := by
  rcases repeatFrom_eq_some_iff.mp given with
    ⟨remaining, contexts, message, replied, moved, ⟨⟩⟩ | ⟨_, _, _, never⟩ |
    ⟨middle, output, round, rest, replied, -, rfl, continued⟩
  · exact (forward current _ replied).lt_of_moved moved
  · contradiction
  · have reached := forward current _ replied
    exact Nat.lt_of_le_of_lt reached.offset_le (forward.lt_of_repeatFrom_fail continued)
termination_by rounds.length

theorem CoveredBy.repeatFrom_done (forward : item.Forward) (covered : item.CoveredBy item')
    {absorb : α → β → α} {rounds : List Char} {current remaining : Cursor} {gathered output : α}
    (given : Runner.repeatFrom item absorb rounds current gathered =
      some (.done remaining output)) :
    Runner.repeatFrom item' absorb rounds current gathered = some (.done remaining output) := by
  rcases repeatFrom_eq_some_iff.mp given with
    ⟨_, _, _, _, _, never⟩ | ⟨inner, replied, stays, same⟩ |
    ⟨middle, found, round, rest, replied, moved, rfl, continued⟩
  · contradiction
  · -- The last round stays where it is, and so it does with attempts in it.
    apply repeatFrom_eq_some_iff.mpr
    cases inner with
    | done remaining' found => exact .inr (.inl ⟨_, covered.done replied, stays, same⟩)
    | fail remaining' contexts message =>
      have skipped : (Reply.fail remaining' contexts message : Reply β).failsAt current = true := by
        simpa [Reply.failsAt, Reply.remaining] using stays
      obtain ⟨contexts', message', declined⟩ := covered.declines (forward.declines replied skipped)
      exact .inr (.inl ⟨_, declined, by simp [Reply.remaining, Cursor.movedFrom], same⟩)
  · have continued' := covered.repeatFrom_done forward continued
    exact repeatFrom_eq_some_iff.mpr
      (.inr (.inr ⟨middle, found, round, rest, covered.done replied, moved, rfl, continued'⟩))
termination_by rounds.length

theorem CoveredBy.repeatFrom (forward : item.Forward) (covered : item.CoveredBy item')
    (absorb : α → β → α) (gathered : α) :
    CoveredBy (fun start => Runner.repeatFrom item absorb start.ahead start gathered)
      fun start => Runner.repeatFrom item' absorb start.ahead start gathered where
  done given := covered.repeatFrom_done forward given
  declines given := by
    obtain ⟨contexts, message, given⟩ := given
    exact absurd (forward.lt_of_repeatFrom_fail given) (Nat.lt_irrefl _)

theorem CoveredBy.collectFrom (forward : item.Forward) (covered : item.CoveredBy item')
    (items : List β) : (Runner.collectFrom item items).CoveredBy (Runner.collectFrom item' items) :=
  (covered.repeatFrom forward (fun items output => output :: items) items).map List.reverse

theorem CoveredBy.many (forward : item.Forward) (covered : item.CoveredBy item') :
    (Runner.many item).CoveredBy (Runner.many item') :=
  covered.collectFrom forward []

theorem CoveredBy.many1 (forward : item.Forward) (covered : item.CoveredBy item') :
    (Runner.many1 item).CoveredBy (Runner.many1 item') :=
  .bind forward (fun output => forward.collectFrom [output]) covered
    fun output => covered.collectFrom forward [output]

theorem CoveredBy.countFrom (forward : item.Forward) (covered : item.CoveredBy item') (n : Nat)
    (items : List β) : CoveredBy (fun current => Runner.countFrom item n current items)
      fun current => Runner.countFrom item' n current items := by
  induction n generalizing items with
  | zero => exact .refl _
  | succ n ih =>
    rw [countFrom_succ, countFrom_succ]
    exact .bind forward (fun output => forward.countFrom n (output :: items)) covered
      fun output => ih (output :: items)

theorem CoveredBy.count (n : Nat) (forward : item.Forward) (covered : item.CoveredBy item') :
    (Runner.count n item).CoveredBy (Runner.count n item') :=
  covered.countFrom forward n []

theorem CoveredBy.sepBy1 (forward : item.Forward) (forward' : separator.Forward)
    (covered : item.CoveredBy item') (covered' : separator.CoveredBy separator') :
    (Runner.sepBy1 item separator).CoveredBy (Runner.sepBy1 item' separator') :=
  .bind forward (fun output => (forward'.seqRight forward).collectFrom [output]) covered
    fun output => (covered'.seqRight forward' forward covered).collectFrom
      (forward'.seqRight forward) [output]

theorem CoveredBy.sepBy (forward : item.Forward) (forward' : separator.Forward)
    (covered : item.CoveredBy item') (covered' : separator.CoveredBy separator') :
    (Runner.sepBy item separator).CoveredBy (Runner.sepBy item' separator') := by
  rw [sepBy_eq_orElse, sepBy_eq_orElse]
  exact .orElse (forward.sepBy1 forward') (covered.sepBy1 forward forward' covered') (.refl _)

theorem CoveredBy.absent (forward : separator.Forward) (covered : separator.CoveredBy separator')
    {place : Cursor} (absent : separator.Absent place) : separator'.Absent place := by
  obtain ⟨stop, stopped, stays⟩ := absent
  obtain ⟨contexts, message, declined⟩ := covered.declines (forward.declines stopped stays)
  exact ⟨_, declined, failsAt_start ..⟩

theorem CoveredBy.manyTill (forward : item.Forward) (forward' : separator.Forward)
    (covered : item.CoveredBy item') (covered' : separator.CoveredBy separator') :
    (Runner.manyTill item separator).CoveredBy (Runner.manyTill item' separator') := by
  have same {start last outputs} (path : Path (Approaches item separator) start outputs last) :
      Path (Approaches item' separator') start outputs last :=
    path.mono fun _ _ _ ⟨absent, replied⟩ =>
      ⟨covered'.absent forward' absent, covered.done replied⟩
  constructor
  · intro start remaining outputs given
    obtain ⟨_, last, path, concludes⟩ := manyTill_eq_some_iff.mp given
    cases concludes with
    | found matched =>
      exact manyTill_eq_some_iff.mpr ⟨outputs, last, same path, .found (covered'.done matched)⟩
  · rintro start ⟨contexts, message, given⟩
    obtain ⟨outputs, last, path, concludes⟩ := manyTill_eq_some_iff.mp given
    have forth := forward.path path
    cases concludes with
    | broken failed moved =>
      -- The end would have moved from a place that is not before the start.
      have further := (forward' last _ failed).lt_of_moved moved
      exact absurd (Nat.lt_of_le_of_lt forth.offset_le further) (Nat.lt_irrefl _)
    | refused absent failed =>
      have here : last = start := forth.antisymm (forward last _ failed)
      subst here
      obtain ⟨contexts', message', declined⟩ := covered.declines ⟨_, _, failed⟩
      refine ⟨contexts', message', manyTill_eq_some_iff.mpr ⟨outputs, last, same path, ?_⟩⟩
      exact .refused (covered'.absent forward' absent) declined

theorem CoveredBy.chainl1 {operator operator' : Runner (β → β → β)} (forward : item.Forward)
    (forward' : operator.Forward) (covered : item.CoveredBy item')
    (covered' : operator.CoveredBy operator') :
    (Runner.chainl1 item operator).CoveredBy (Runner.chainl1 item' operator') := by
  rw [chainl1_eq_bind, chainl1_eq_bind]
  apply CoveredBy.bind forward
  · intro output start reply given
    exact (forward'.zip forward).repeatFrom _ given
  · exact covered
  · intro output
    exact (covered'.zip forward' forward covered).repeatFrom (forward'.zip forward) _ output

end

end Runner

namespace Parser

variable {N N' : Type → Type}

/-- The second parser is the first with attempts put around parts of it. The first has none, and
no negative look-ahead; `Related` are the names of a rule and of its form with attempts. -/
inductive Attempted (Related : {β : Type} → N β → N' β → Prop) :
    {α : Type} → Parser N α → Parser N' α → Prop where
  | attempt {α : Type} {parser : Parser N α} {other : Parser N' α} :
    Attempted Related parser other → Attempted Related parser (.attempt other)
  | satisfy (accepts : Char → Bool) : Attempted Related (.satisfy accepts) (.satisfy accepts)
  | pure {α : Type} (value : α) : Attempted Related (.pure value) (.pure value)
  | fail {α : Type} (message : String) :
    Attempted Related (.fail message : Parser N α) (.fail message)
  | endOfInput : Attempted Related .endOfInput .endOfInput
  | literal (expected : String) : Attempted Related (.literal expected) (.literal expected)
  | takeWhile (accepts : Char → Bool) :
    Attempted Related (.takeWhile accepts) (.takeWhile accepts)
  | takeWhile1 (accepts : Char → Bool) :
    Attempted Related (.takeWhile1 accepts) (.takeWhile1 accepts)
  | ref {α : Type} {name : N α} {name' : N' α} :
    Related name name' → Attempted Related (.ref name) (.ref name')
  | map {α β : Type} {parser : Parser N α} {other : Parser N' α} (f : α → β) :
    Attempted Related parser other → Attempted Related (.map f parser) (.map f other)
  | tryMap {α β : Type} {parser : Parser N α} {other : Parser N' α} (f : α → Except String β) :
    Attempted Related parser other → Attempted Related (.tryMap f parser) (.tryMap f other)
  | bind {α β : Type} {first : Parser N α} {first' : Parser N' α} {next : α → Parser N β}
      {next' : α → Parser N' β} :
    Attempted Related first first' → (∀ output, Attempted Related (next output) (next' output)) →
    Attempted Related (.bind first next) (.bind first' next')
  | seqRight {α β : Type} {first : Parser N α} {first' : Parser N' α} {second : Parser N β}
      {second' : Parser N' β} :
    Attempted Related first first' → Attempted Related second second' →
    Attempted Related (.seqRight first second) (.seqRight first' second')
  | zip {α β : Type} {first : Parser N α} {first' : Parser N' α} {second : Parser N β}
      {second' : Parser N' β} :
    Attempted Related first first' → Attempted Related second second' →
    Attempted Related (.zip first second) (.zip first' second')
  | orElse {α : Type} {first second : Parser N α} {first' second' : Parser N' α} :
    Attempted Related first first' → Attempted Related second second' →
    Attempted Related (.orElse first second) (.orElse first' second')
  | label {α : Type} {parser : Parser N α} {other : Parser N' α} (name : String) :
    Attempted Related parser other → Attempted Related (.label name parser) (.label name other)
  | lookAhead {α : Type} {parser : Parser N α} {other : Parser N' α} :
    Attempted Related parser other → Attempted Related (.lookAhead parser) (.lookAhead other)
  | recognize {α : Type} {parser : Parser N α} {other : Parser N' α} :
    Attempted Related parser other → Attempted Related (.recognize parser) (.recognize other)
  | optional {α : Type} {parser : Parser N α} {other : Parser N' α} :
    Attempted Related parser other → Attempted Related (.optional parser) (.optional other)
  | many {α : Type} {item : Parser N α} {item' : Parser N' α} :
    Attempted Related item item' → Attempted Related (.many item) (.many item')
  | many1 {α : Type} {item : Parser N α} {item' : Parser N' α} :
    Attempted Related item item' → Attempted Related (.many1 item) (.many1 item')
  | count {α : Type} {item : Parser N α} {item' : Parser N' α} (n : Nat) :
    Attempted Related item item' → Attempted Related (.count n item) (.count n item')
  | manyTill {α β : Type} {item : Parser N α} {item' : Parser N' α} {final : Parser N β}
      {final' : Parser N' β} :
    Attempted Related item item' → Attempted Related final final' →
    Attempted Related (.manyTill item final) (.manyTill item' final')
  | sepBy {α β : Type} {item : Parser N α} {item' : Parser N' α} {separator : Parser N β}
      {separator' : Parser N' β} :
    Attempted Related item item' → Attempted Related separator separator' →
    Attempted Related (.sepBy item separator) (.sepBy item' separator')
  | sepBy1 {α β : Type} {item : Parser N α} {item' : Parser N' α} {separator : Parser N β}
      {separator' : Parser N' β} :
    Attempted Related item item' → Attempted Related separator separator' →
    Attempted Related (.sepBy1 item separator) (.sepBy1 item' separator')
  | chainl1 {α : Type} {operand : Parser N α} {operand' : Parser N' α}
      {operator : Parser N (α → α → α)} {operator' : Parser N' (α → α → α)} :
    Attempted Related operand operand' → Attempted Related operator operator' →
    Attempted Related (.chainl1 operand operator) (.chainl1 operand' operator')

variable {Related : {β : Type} → N β → N' β → Prop}

theorem Attempted.eval_coveredBy {call : {β : Type} → N β → Runner β}
    {call' : {β : Type} → N' β → Runner β}
    (forward : ∀ {β : Type} (name : N β), (call name).Forward)
    (covered : ∀ {β : Type} {name : N β} {name' : N' β}, Related name name' →
      (call name).CoveredBy (call' name'))
    {α : Type} {parser : Parser N α} {other : Parser N' α}
    (attempted : Attempted Related parser other) :
    (parser.eval call).CoveredBy (other.eval call') := by
  -- A part is only known to have failed at the start of the whole if no part before it goes back.
  have forwards {β : Type} (part : Parser N β) : (part.eval call).Forward :=
    eval_forward forward part
  induction attempted with
  | attempt _ ih => exact ih.attempt
  | satisfy | pure | fail | endOfInput | literal | takeWhile | takeWhile1 => exact .refl _
  | ref related => exact covered related
  | map f _ ih => exact ih.map f
  | tryMap f _ ih => exact ih.tryMap f
  | bind _ _ ih ih' => exact .bind (forwards _) (fun _ => forwards _) ih ih'
  | seqRight _ _ ih ih' => exact .seqRight (forwards _) (forwards _) ih ih'
  | zip _ _ ih ih' => exact .zip (forwards _) (forwards _) ih ih'
  | orElse _ _ ih ih' => exact .orElse (forwards _) ih ih'
  | label name _ ih => exact ih.label name
  | lookAhead _ ih => exact ih.lookAhead
  | recognize _ ih => exact ih.recognize
  | optional _ ih => exact .optional (forwards _) ih
  | many _ ih => exact ih.many (forwards _)
  | many1 _ ih => exact ih.many1 (forwards _)
  | count n _ ih => exact ih.count n (forwards _)
  | manyTill _ _ ih ih' => exact .manyTill (forwards _) (forwards _) ih ih'
  | sepBy _ _ ih ih' => exact .sepBy (forwards _) (forwards _) ih ih'
  | sepBy1 _ _ ih ih' => exact .sepBy1 (forwards _) (forwards _) ih ih'
  | chainl1 _ _ ih ih' => exact .chainl1 (forwards _) (forwards _) ih ih'

variable {rules : {β : Type} → N β → Parser N β} {rules' : {β : Type} → N' β → Parser N' β}

theorem Attempted.run_coveredBy
    (rules_ok : ∀ {β : Type} {name : N β} {name' : N' β}, Related name name' →
      Attempted Related (rules name) (rules' name'))
    (depth : Nat) {α : Type} {parser : Parser N α} {other : Parser N' α}
    (attempted : Attempted Related parser other) :
    (parser.run rules depth).CoveredBy (other.run rules' depth) := by
  induction depth generalizing α with
  | zero =>
    -- Neither grammar is entered: no reference replies.
    apply attempted.eval_coveredBy
    · intro β name start reply never
      contradiction
    · intro β name name' related
      exact ⟨fun never => by contradiction, fun ⟨_, _, never⟩ => by contradiction⟩
  | succ depth ih =>
    apply attempted.eval_coveredBy
    · intro β name
      exact run_forward depth (rules name)
    · intro β name name' related
      exact ih (rules_ok related)

theorem run_attempted
    (rules_ok : ∀ {β : Type} {name : N β} {name' : N' β}, Related name name' →
      Attempted Related (rules name) (rules' name'))
    {α : Type} {parser : Parser N α} {other : Parser N' α}
    (attempted : Attempted Related parser other) {depth : Nat} {start : Cursor} {reply : Reply α}
    (returned : parser.run rules depth start = some reply) :
    (reply.isDone = true → other.run rules' depth start = some reply) ∧
      (reply.failsAt start = true →
        ∃ reply', other.run rules' depth start = some reply' ∧ reply'.failsAt start = true) := by
  have covered := attempted.run_coveredBy rules_ok depth
  constructor
  · intro succeeds
    cases reply with
    | done remaining output => exact covered.done returned
    | fail remaining contexts message => contradiction
  · intro stays
    have declines := (run_forward depth parser).declines returned stays
    obtain ⟨contexts, message, declined⟩ := covered.declines declines
    exact ⟨_, declined, Runner.failsAt_start start contexts message⟩

def nestedAttempted : Parser Nested Unit :=
  mapTo () (between (char '[') (optional (attempt (ref .brackets))) (char ']'))

def nestedAttemptedRules : {β : Type} → Nested β → Parser Nested β
  | _, .brackets => attempt nestedAttempted

theorem attempted_nested : Attempted Eq nested nestedAttempted := by
  apply Attempted.map
  apply Attempted.map
  apply Attempted.zip
  · exact .seqRight (.satisfy _) (.optional (.attempt (.ref rfl)))
  · exact .satisfy _

theorem attempted_nestedRules {β : Type} {name name' : Nested β} (same : name = name') :
    Attempted Eq (nestedRules name) (nestedAttemptedRules name') := by
  subst same
  cases name
  exact .attempt attempted_nested

theorem run_attempted_nested :
    nestedAttempted.run nestedAttemptedRules 2 (.start 0 "[[]]".toList) =
        some (.done (Cursor.advance 4 (.start 0 "[[]]".toList)) ()) ∧
      ∃ reply', nestedAttempted.run nestedAttemptedRules 2 (.start 0 "]".toList) = some reply' ∧
        reply'.failsAt (.start 0 "]".toList) = true := by
  have nests : nested.run nestedRules 2 (.start 0 "[[]]".toList) =
      some (.done (Cursor.advance 4 (.start 0 "[[]]".toList)) ()) := rfl
  have declines : nested.run nestedRules 2 (.start 0 "]".toList) =
      some (.fail (.start 0 "]".toList) [] "satisfy") := rfl
  exact ⟨(run_attempted attempted_nestedRules attempted_nested nests).1 rfl,
    (run_attempted attempted_nestedRules attempted_nested declines).2 rfl⟩

end Parser

end CombinatorJson
