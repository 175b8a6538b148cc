import CombinatorJson.Proofs.Lockstep

set_option autoImplicit false

namespace CombinatorJson

def Reply.withoutContexts {α : Type} : Reply α → Reply α
  | .done remaining output => .done remaining output
  | .fail remaining _ message => .fail remaining [] message

namespace Correspondence

theorem laws_dropContexts : Laws Eq fun _ contexts => contexts = [] where
  ahead_eq same := congrArg Cursor.ahead same
  advance count same := congrArg (Cursor.advance count) same
  movedFrom_eq origin same := by rw [origin, same]
  consumedSince_eq origin same := by rw [origin, same]
  noContexts := rfl

/-- The same place, where the second run has no contexts. -/
def dropContexts : Correspondence where
  Place := Eq
  Contexts _ contexts := contexts = []
  laws := laws_dropContexts

end Correspondence

theorem Runner.Lockstep.eq_withoutContexts {α : Type} {left right : Runner α}
    (step : Lockstep .dropContexts left right) (start : Cursor) :
    right start = (left start).map Reply.withoutContexts := by
  rcases step.replies (Eq.refl start) with ⟨replied, replied'⟩ | ⟨_, _, replied, replied', alike⟩ <;>
    rw [replied, replied']
  · rfl
  · cases alike with
    | done output place =>
      cases place
      rfl
    | fail message place dropped =>
      cases place
      cases dropped
      rfl

namespace Parser

open CombinatorJson.Runner

variable {N : Type → Type}

/-- The parser with every label deleted, also from the parsers it computes. -/
def withoutLabels : {α : Type} → Parser N α → Parser N α
  | _, satisfy accepts => satisfy accepts
  | _, pure value => pure value
  | _, fail message => fail message
  | _, endOfInput => endOfInput
  | _, literal expected => literal expected
  | _, takeWhile accepts => takeWhile accepts
  | _, takeWhile1 accepts => takeWhile1 accepts
  | _, ref name => ref name
  | _, map f parser => map f parser.withoutLabels
  | _, tryMap f parser => tryMap f parser.withoutLabels
  | _, bind first next => bind first.withoutLabels fun output => (next output).withoutLabels
  | _, seqRight first second => seqRight first.withoutLabels second.withoutLabels
  | _, zip first second => zip first.withoutLabels second.withoutLabels
  | _, orElse first second => orElse first.withoutLabels second.withoutLabels
  | _, attempt parser => attempt parser.withoutLabels
  | _, label _ parser => parser.withoutLabels
  | _, lookAhead parser => lookAhead parser.withoutLabels
  | _, notFollowedBy parser => notFollowedBy parser.withoutLabels
  | _, recognize parser => recognize parser.withoutLabels
  | _, optional parser => optional parser.withoutLabels
  | _, many item => many item.withoutLabels
  | _, many1 item => many1 item.withoutLabels
  | _, count n item => count n item.withoutLabels
  | _, manyTill item final => manyTill item.withoutLabels final.withoutLabels
  | _, sepBy item separator => sepBy item.withoutLabels separator.withoutLabels
  | _, sepBy1 item separator => sepBy1 item.withoutLabels separator.withoutLabels
  | _, chainl1 operand operator => chainl1 operand.withoutLabels operator.withoutLabels

theorem eval_withoutLabels {call call' : {β : Type} → N β → Runner β}
    (step : ∀ {β : Type} (name : N β), Lockstep .dropContexts (call name) (call' name)) {α : Type}
    (parser : Parser N α) :
    Lockstep .dropContexts (parser.eval call) (parser.withoutLabels.eval call') := by
  induction parser with
  | satisfy accepts => exact lockstep_satisfy accepts
  | pure value => exact lockstep_pure value
  | fail message => exact lockstep_fail message
  | endOfInput => exact lockstep_endOfInput
  | literal expected => exact lockstep_literal expected
  | takeWhile accepts => exact lockstep_takeWhile accepts
  | takeWhile1 accepts => exact lockstep_takeWhile1 accepts
  | ref name => exact step name
  -- The contexts of the other run stay empty, whatever name is put before those of this one.
  | label name _ ih => exact ih.label_left name fun _ _ dropped => dropped
  | map f _ ih => exact ih.map f
  | tryMap f _ ih => exact ih.tryMap f
  | bind _ _ ih ih' => exact ih.bind ih'
  | seqRight _ _ ih ih' => exact ih.seqRight ih'
  | zip _ _ ih ih' => exact ih.zip ih'
  | orElse _ _ ih ih' => exact ih.orElse ih'
  | attempt _ ih => exact ih.attempt
  | lookAhead _ ih => exact ih.lookAhead
  | notFollowedBy _ ih => exact ih.notFollowedBy
  | recognize _ ih => exact ih.recognize
  | optional _ ih => exact ih.optional
  | many _ ih => exact ih.many
  | many1 _ ih => exact ih.many1
  | count n _ ih => exact ih.count n
  | manyTill _ _ ih ih' => exact ih.manyTill ih'
  | sepBy _ _ ih ih' => exact ih.sepBy ih'
  | sepBy1 _ _ ih ih' => exact ih.sepBy1 ih'
  | chainl1 _ _ ih ih' => exact ih.chainl1 ih'

variable (rules : {β : Type} → N β → Parser N β)

theorem run_lockstep_withoutLabels (depth : Nat) {α : Type} (parser : Parser N α) :
    Lockstep .dropContexts (parser.run rules depth)
      (parser.withoutLabels.run (fun name => (rules name).withoutLabels) depth) := by
  induction depth generalizing α with
  | zero => exact eval_withoutLabels (fun _ _ _ _ => .none) parser
  | succ depth ih => exact eval_withoutLabels (fun name => ih (rules name)) parser

theorem run_withoutLabels (depth : Nat) {α : Type} (parser : Parser N α) (start : Cursor) :
    parser.withoutLabels.run (fun name => (rules name).withoutLabels) depth start =
      (parser.run rules depth start).map Reply.withoutContexts :=
  (run_lockstep_withoutLabels rules depth parser).eq_withoutContexts start

end Parser

end CombinatorJson
