import CombinatorJson.Runner
import CombinatorJson.Text.Characters

set_option autoImplicit false

namespace CombinatorJson

/-- A parser with an output of the given type; `N` holds the names of the rules it refers to. -/
inductive Parser (N : Type → Type) : Type → Type 1 where
  | satisfy (accepts : Char → Bool) : Parser N Char
  | pure {α : Type} (value : α) : Parser N α
  | fail {α : Type} (message : String) : Parser N α
  | endOfInput : Parser N Unit
  | literal (expected : String) : Parser N String
  | takeWhile (accepts : Char → Bool) : Parser N String
  | takeWhile1 (accepts : Char → Bool) : Parser N String
  | ref {α : Type} (name : N α) : Parser N α
  | map {α β : Type} (f : α → β) (parser : Parser N α) : Parser N β
  | tryMap {α β : Type} (f : α → Except String β) (parser : Parser N α) : Parser N β
  | bind {α β : Type} (first : Parser N α) (next : α → Parser N β) : Parser N β
  | seqRight {α β : Type} (first : Parser N α) (second : Parser N β) : Parser N β
  | zip {α β : Type} (first : Parser N α) (second : Parser N β) : Parser N (α × β)
  | orElse {α : Type} (first second : Parser N α) : Parser N α
  | attempt {α : Type} (parser : Parser N α) : Parser N α
  | label {α : Type} (name : String) (parser : Parser N α) : Parser N α
  | lookAhead {α : Type} (parser : Parser N α) : Parser N α
  | notFollowedBy {α : Type} (parser : Parser N α) : Parser N Unit
  | recognize {α : Type} (parser : Parser N α) : Parser N String
  | optional {α : Type} (parser : Parser N α) : Parser N (Option α)
  | many {α : Type} (item : Parser N α) : Parser N (List α)
  | many1 {α : Type} (item : Parser N α) : Parser N (List α)
  | count {α : Type} (count : Nat) (item : Parser N α) : Parser N (List α)
  | manyTill {α β : Type} (item : Parser N α) (final : Parser N β) : Parser N (List α)
  | sepBy {α β : Type} (item : Parser N α) (separator : Parser N β) : Parser N (List α)
  | sepBy1 {α β : Type} (item : Parser N α) (separator : Parser N β) : Parser N (List α)
  | chainl1 {α : Type} (operand : Parser N α) (operator : Parser N (α → α → α)) : Parser N α

namespace Parser

variable {N : Type → Type} {α β γ : Type}

def char (expected : Char) : Parser N Char :=
  satisfy (· == expected)

def anyChar : Parser N Char :=
  satisfy fun _ => true

def oneOf (chars : String) : Parser N Char :=
  satisfy chars.toList.contains

def noneOf (chars : String) : Parser N Char :=
  satisfy fun c => !chars.toList.contains c

def mapTo (value : β) (parser : Parser N α) : Parser N β :=
  map (fun _ => value) parser

def seqLeft (first : Parser N α) (second : Parser N β) : Parser N α :=
  map Prod.fst (zip first second)

def between (opening : Parser N β) (parser : Parser N α) (closing : Parser N γ) : Parser N α :=
  seqLeft (seqRight opening parser) closing

def option (default : α) (parser : Parser N α) : Parser N α :=
  orElse parser (pure default)

def choice : List (Parser N α) → Parser N α
  | [] => fail "choice"
  | first :: rest => rest.foldl orElse first

def skipMany (item : Parser N α) : Parser N Unit :=
  map (fun _ => ()) (many item)

def skipMany1 (item : Parser N α) : Parser N Unit :=
  map (fun _ => ()) (many1 item)

def skipSpaces : Parser N Unit :=
  skipMany (satisfy isBlank)

/-- What a parser does when the rules do what `call` says. -/
def eval (call : {β : Type} → N β → Runner β) : {α : Type} → Parser N α → Runner α
  | _, satisfy accepts => Runner.satisfy accepts
  | _, pure value => Runner.pure value
  | _, fail message => Runner.fail message
  | _, endOfInput => Runner.endOfInput
  | _, literal expected => Runner.literal expected
  | _, takeWhile accepts => Runner.takeWhile accepts
  | _, takeWhile1 accepts => Runner.takeWhile1 accepts
  | _, ref name => call name
  | _, map f parser => Runner.map f (parser.eval call)
  | _, tryMap f parser => Runner.tryMap f (parser.eval call)
  | _, bind first next => Runner.bind (first.eval call) fun output => (next output).eval call
  | _, seqRight first second => Runner.seqRight (first.eval call) (second.eval call)
  | _, zip first second => Runner.zip (first.eval call) (second.eval call)
  | _, orElse first second => Runner.orElse (first.eval call) (second.eval call)
  | _, attempt parser => Runner.attempt (parser.eval call)
  | _, label name parser => Runner.label name (parser.eval call)
  | _, lookAhead parser => Runner.lookAhead (parser.eval call)
  | _, notFollowedBy parser => Runner.notFollowedBy (parser.eval call)
  | _, recognize parser => Runner.recognize (parser.eval call)
  | _, optional parser => Runner.optional (parser.eval call)
  | _, many item => Runner.many (item.eval call)
  | _, many1 item => Runner.many1 (item.eval call)
  | _, count n item => Runner.count n (item.eval call)
  | _, manyTill item final => Runner.manyTill (item.eval call) (final.eval call)
  | _, sepBy item separator => Runner.sepBy (item.eval call) (separator.eval call)
  | _, sepBy1 item separator => Runner.sepBy1 (item.eval call) (separator.eval call)
  | _, chainl1 operand operator => Runner.chainl1 (operand.eval call) (operator.eval call)

/-- A run in which references nest at most `depth` deep. -/
def run (rules : {β : Type} → N β → Parser N β) : Nat → {α : Type} → Parser N α → Runner α
  | 0, _, parser => parser.eval fun _ _ => none
  | depth + 1, _, parser => parser.eval fun name => run rules depth (rules name)

theorem exists_run_eq_eval (rules : {β : Type} → N β → Parser N β) (depth : Nat) :
    ∃ call : {β : Type} → N β → Runner β, ∀ {γ : Type} (parser : Parser N γ),
      parser.run rules depth = parser.eval call := by
  cases depth with
  | zero => exact ⟨fun _ _ => none, fun _ => rfl⟩
  | succ depth => exact ⟨fun name => run rules depth (rules name), fun _ => rfl⟩

end Parser

end CombinatorJson
