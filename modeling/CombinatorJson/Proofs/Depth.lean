import CombinatorJson.Parser
import CombinatorJson.Proofs.Approach

set_option autoImplicit false

namespace CombinatorJson

namespace Runner

variable {α β γ : Type}

def Within (small large : Runner α) : Prop :=
  ∀ (start : Cursor) (reply : Reply α), small start = some reply → large start = some reply

theorem Within.refl (parser : Runner α) : parser.Within parser :=
  fun _ _ given => given

section

variable {small large : Runner α}

theorem Within.through {treated : Runner α → Runner β}
    (silent : ∀ parser start, parser start = none → treated parser start = none)
    (pointwise : ∀ parser parser' start, parser start = parser' start →
      treated parser start = treated parser' start)
    (within : small.Within large) : (treated small).Within (treated large) := by
  intro start reply given
  -- A silent parser makes the treated one silent, which has given a reply.
  cases replied : small start with
  | none =>
    rw [silent small start replied] at given
    contradiction
  | some inner =>
    have same := pointwise small large start (replied.trans (within start inner replied).symm)
    exact same ▸ given

theorem Within.map (f : α → β) (within : small.Within large) :
    (Runner.map f small).Within (Runner.map f large) :=
  within.through (fun _ _ silent => by simp [Runner.map, silent])
    (fun _ _ _ same => by simp [Runner.map, same])

theorem Within.tryMap (f : α → Except String β) (within : small.Within large) :
    (Runner.tryMap f small).Within (Runner.tryMap f large) :=
  within.through (fun _ _ silent => by simp [Runner.tryMap, silent])
    (fun _ _ _ same => by simp [Runner.tryMap, same])

theorem Within.attempt (within : small.Within large) :
    (Runner.attempt small).Within (Runner.attempt large) :=
  within.through (fun _ _ silent => by simp [Runner.attempt, silent])
    (fun _ _ _ same => by simp [Runner.attempt, same])

theorem Within.label (name : String) (within : small.Within large) :
    (Runner.label name small).Within (Runner.label name large) :=
  within.through (fun _ _ silent => by simp [Runner.label, silent])
    (fun _ _ _ same => by simp [Runner.label, same])

theorem Within.lookAhead (within : small.Within large) :
    (Runner.lookAhead small).Within (Runner.lookAhead large) :=
  within.through (fun _ _ silent => by simp [Runner.lookAhead, silent])
    (fun _ _ _ same => by simp [Runner.lookAhead, same])

theorem Within.notFollowedBy (within : small.Within large) :
    (Runner.notFollowedBy small).Within (Runner.notFollowedBy large) :=
  within.through (fun _ _ silent => by simp [Runner.notFollowedBy, silent])
    (fun _ _ _ same => by simp [Runner.notFollowedBy, same])

theorem Within.recognize (within : small.Within large) :
    (Runner.recognize small).Within (Runner.recognize large) :=
  within.through (fun _ _ silent => by simp [Runner.recognize, silent])
    (fun _ _ _ same => by simp [Runner.recognize, same])

theorem Within.optional (within : small.Within large) :
    (Runner.optional small).Within (Runner.optional large) :=
  within.through (fun _ _ silent => by simp [Runner.optional, silent])
    (fun _ _ _ same => by simp [Runner.optional, same])

end

section

variable {first first' : Runner α} {second second' : Runner β}

theorem Within.bind {next next' : α → Runner β} (within : first.Within first')
    (within' : ∀ output, (next output).Within (next' output)) :
    (Runner.bind first next).Within (Runner.bind first' next') := by
  intro start reply given
  cases replied : first start with
  | none => simp [Runner.bind, replied] at given
  | some inner =>
    rw [Runner.bind, replied] at given
    rw [Runner.bind, within start inner replied]
    cases inner with
    | done remaining output => exact within' output remaining reply given
    | fail remaining contexts message => exact given

theorem Within.seqRight (within : first.Within first') (within' : second.Within second') :
    (Runner.seqRight first second).Within (Runner.seqRight first' second') :=
  Within.bind within fun _ => within'

theorem Within.zip (within : first.Within first') (within' : second.Within second') :
    (Runner.zip first second).Within (Runner.zip first' second') :=
  Within.bind within fun output => within'.map fun other => (output, other)

theorem Within.orElse {second second' : Runner α} (within : first.Within first')
    (within' : second.Within second') :
    (Runner.orElse first second).Within (Runner.orElse first' second') := by
  intro start reply given
  cases replied : first start with
  | none => simp [Runner.orElse, replied] at given
  | some inner =>
    simp only [Runner.orElse, replied] at given
    simp only [Runner.orElse, within start inner replied]
    split at given
    · next skipped => rw [if_pos skipped, within' start reply given]
    · next kept => rw [if_neg kept, given]

end

section

variable {item item' : Runner β} {separator separator' : Runner γ}

theorem Within.repeatFrom (within : item.Within item') (absorb : α → β → α) (rounds : List Char)
    (current : Cursor) (gathered : α) (reply : Reply α)
    (given : Runner.repeatFrom item absorb rounds current gathered = some reply) :
    Runner.repeatFrom item' absorb rounds current gathered = some reply := by
  induction rounds generalizing current gathered with
  | nil =>
    cases replied : item current with
    | none => simp [Runner.repeatFrom, replied] at given
    | some inner =>
      rw [Runner.repeatFrom, replied] at given
      rw [Runner.repeatFrom, within current inner replied]
      exact given
  | cons round rounds ih =>
    cases replied : item current with
    | none => simp [Runner.repeatFrom, replied] at given
    | some inner =>
      rw [Runner.repeatFrom, replied] at given
      rw [Runner.repeatFrom, within current inner replied]
      cases inner with
      | fail remaining contexts message => exact given
      | done remaining output =>
        -- Only a round that moved goes on to the next one.
        simp only at given ⊢
        split at given
        · next moved => rw [if_pos moved, ih _ _ given]
        · next stayed => rw [if_neg stayed, given]

theorem Within.collectFrom (within : item.Within item') (items : List β) :
    (Runner.collectFrom item items).Within (Runner.collectFrom item' items) := by
  intro start reply given
  simp only [Runner.collectFrom, Option.map_eq_some_iff] at given ⊢
  obtain ⟨inner, given, rfl⟩ := given
  exact ⟨inner, within.repeatFrom _ _ _ _ _ given, rfl⟩

theorem Within.many (within : item.Within item') : (Runner.many item).Within (Runner.many item') :=
  within.collectFrom []

theorem Within.many1 (within : item.Within item') :
    (Runner.many1 item).Within (Runner.many1 item') :=
  Within.bind within fun output => within.collectFrom [output]

theorem Within.countFrom (within : item.Within item') (count : Nat) (current : Cursor)
    (items : List β) (reply : Reply (List β))
    (given : Runner.countFrom item count current items = some reply) :
    Runner.countFrom item' count current items = some reply := by
  induction count generalizing current items with
  | zero => exact given
  | succ count ih =>
    cases replied : item current with
    | none => simp [Runner.countFrom, replied] at given
    | some inner =>
      rw [Runner.countFrom, replied] at given
      rw [Runner.countFrom, within current inner replied]
      cases inner with
      | fail remaining contexts message => exact given
      | done remaining output => exact ih remaining (output :: items) given

theorem Within.count (count : Nat) (within : item.Within item') :
    (Runner.count count item).Within (Runner.count count item') :=
  fun start reply given => within.countFrom count start [] reply given

theorem Within.absent (within : separator.Within separator') {place : Cursor}
    (absent : separator.Absent place) : separator'.Absent place := by
  obtain ⟨stop, stopped, stays⟩ := absent
  exact ⟨stop, within place stop stopped, stays⟩

theorem Within.manyTill (within : item.Within item') (within' : separator.Within separator') :
    (Runner.manyTill item separator).Within (Runner.manyTill item' separator') := by
  intro start reply given
  obtain ⟨outputs, last, path, concludes⟩ := manyTill_eq_some_iff.mp given
  have path' : Path (Approaches item' separator') start outputs last :=
    path.mono fun start output middle ⟨absent, replied⟩ =>
      ⟨within'.absent absent, within start _ replied⟩
  refine manyTill_eq_some_iff.mpr ⟨outputs, last, path', ?_⟩
  cases concludes with
  | found matched => exact .found (within' last _ matched)
  | broken failed moved => exact .broken (within' last _ failed) moved
  | refused absent failed => exact .refused (within'.absent absent) (within last _ failed)

theorem Within.sepBy1 (within : item.Within item') (within' : separator.Within separator') :
    (Runner.sepBy1 item separator).Within (Runner.sepBy1 item' separator') :=
  Within.bind within fun output => (within'.seqRight within).collectFrom [output]

theorem Within.sepBy (within : item.Within item') (within' : separator.Within separator') :
    (Runner.sepBy item separator).Within (Runner.sepBy item' separator') := by
  intro start reply given
  cases replied : Runner.sepBy1 item separator start with
  | none => simp [Runner.sepBy, replied] at given
  | some inner =>
    rw [Runner.sepBy, replied] at given
    rw [Runner.sepBy, within.sepBy1 within' start inner replied]
    exact given

theorem Within.chainl1 {operator operator' : Runner (β → β → β)} (within : item.Within item')
    (within' : operator.Within operator') :
    (Runner.chainl1 item operator).Within (Runner.chainl1 item' operator') := by
  intro start reply given
  cases replied : item start with
  | none => simp [Runner.chainl1, replied] at given
  | some inner =>
    rw [Runner.chainl1, replied] at given
    rw [Runner.chainl1, within start inner replied]
    cases inner with
    | fail remaining contexts message => exact given
    | done remaining output => exact (within'.zip within).repeatFrom _ _ _ _ _ given

end

end Runner

namespace Parser

open CombinatorJson.Runner

variable {N : Type → Type}

theorem eval_within {call call' : {β : Type} → N β → Runner β}
    (within : ∀ {β : Type} (name : N β), (call name).Within (call' name)) {α : Type}
    (parser : Parser N α) : (parser.eval call).Within (parser.eval call') := by
  induction parser with
  | satisfy | pure | fail | endOfInput | literal | takeWhile | takeWhile1 => exact .refl _
  | ref name => exact within name
  | map f _ ih => exact ih.map f
  | tryMap f _ ih => exact ih.tryMap f
  | bind _ _ ih ih' => exact ih.bind ih'
  | seqRight _ _ ih ih' => exact ih.seqRight ih'
  | zip _ _ ih ih' => exact ih.zip ih'
  | orElse _ _ ih ih' => exact ih.orElse ih'
  | attempt _ ih => exact ih.attempt
  | label name _ ih => exact ih.label name
  | lookAhead _ ih => exact ih.lookAhead
  | notFollowedBy _ ih => exact ih.notFollowedBy
  | recognize _ ih => exact ih.recognize
  | optional _ ih => exact ih.optional
  | many _ ih => exact ih.many
  | many1 _ ih => exact ih.many1
  | count n _ ih => exact ih.count n
  | manyTill _ _ ih ih' => exact ih.manyTill ih'
  | sepBy _ _ ih ih' => exact ih.sepBy ih'
  | sepBy1 _ _ ih ih' => exact ih.sepBy1 ih'
  | chainl1 _ _ ih ih' => exact ih.chainl1 ih'

variable (rules : {β : Type} → N β → Parser N β)

theorem run_within_succ (depth : Nat) {α : Type} (parser : Parser N α) :
    (parser.run rules depth).Within (parser.run rules (depth + 1)) := by
  induction depth generalizing α with
  | zero => exact eval_within (fun _ _ _ never => by contradiction) parser
  | succ depth ih => exact eval_within (fun name => ih (rules name)) parser

theorem run_within {depth depth' : Nat} (deeper : depth ≤ depth') {α : Type}
    (parser : Parser N α) : (parser.run rules depth).Within (parser.run rules depth') := by
  -- One more level of nesting at a time.
  induction deeper with
  | refl => exact .refl _
  | step _ ih =>
    intro start reply given
    exact run_within_succ rules _ parser start reply (ih start reply given)

end Parser

end CombinatorJson
