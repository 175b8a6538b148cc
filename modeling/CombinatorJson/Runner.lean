import CombinatorJson.Reply

set_option autoImplicit false

namespace CombinatorJson

/-- The reply at each cursor; `none` where a run never ends. -/
abbrev Runner (α : Type) := Cursor → Option (Reply α)

namespace Runner

variable {α β γ : Type}

def satisfy (accepts : Char → Bool) : Runner Char := fun start =>
  match start.peek? with
  | some c =>
    if accepts c then some (.done (start.advance 1) c) else some (.failAt start "satisfy")
  | none => some (.failAt start "satisfy")

def pure (value : α) : Runner α := fun start =>
  some (.done start value)

def fail (message : String) : Runner α := fun start =>
  some (.failAt start message)

def endOfInput : Runner Unit := fun start =>
  if start.atEnd then some (.done start ()) else some (.failAt start "endOfInput")

def literalFrom (output : String) : List Char → Cursor → Reply String
  | [], current => .done current output
  | c :: rest, current =>
    if current.peek? = some c then
      literalFrom output rest (current.advance 1)
    else
      .failAt current "satisfy"

def literal (expected : String) : Runner String := fun start =>
  some (literalFrom expected expected.toList start)

def takeWhile (accepts : Char → Bool) : Runner String := fun start =>
  let remaining := start.advance (start.ahead.takeWhile accepts).length
  some (.done remaining (String.ofList (remaining.consumedSince start)))

def takeWhile1 (accepts : Char → Bool) : Runner String := fun start =>
  match start.peek? with
  | some c => if accepts c then takeWhile accepts start else some (.failAt start "satisfy")
  | none => some (.failAt start "satisfy")

def map (f : α → β) (parser : Runner α) : Runner β := fun start =>
  (parser start).map (Reply.map f)

def tryMap (f : α → Except String β) (parser : Runner α) : Runner β := fun start =>
  match parser start with
  | none => none
  | some (.done remaining output) =>
    match f output with
    | .ok output => some (.done remaining output)
    | .error message => some (.failAt start message) -- not where the output ended
  | some (.fail remaining contexts message) => some (.fail remaining contexts message)

def bind (first : Runner α) (next : α → Runner β) : Runner β := fun start =>
  match first start with
  | none => none
  | some (.done remaining output) => next output remaining
  | some (.fail remaining contexts message) => some (.fail remaining contexts message)

def seqRight (first : Runner α) (second : Runner β) : Runner β := fun start =>
  match first start with
  | none => none
  | some (.done remaining _) => second remaining
  | some (.fail remaining contexts message) => some (.fail remaining contexts message)

def zip (first : Runner α) (second : Runner β) : Runner (α × β) := fun start =>
  match first start with
  | none => none
  | some (.done remaining output) => (second remaining).map (Reply.map fun other => (output, other))
  | some (.fail remaining contexts message) => some (.fail remaining contexts message)

def orElse (first second : Runner α) : Runner α := fun start =>
  match first start with
  | none => none
  | some reply => if reply.failsAt start then second start else some reply

/-- A failure moves back to the start, where alternation recovers from it. -/
def attempt (parser : Runner α) : Runner α := fun start =>
  match parser start with
  | none => none
  | some (.done remaining output) => some (.done remaining output)
  | some (.fail _ contexts message) => some (.fail start contexts message)

def label (name : String) (parser : Runner α) : Runner α := fun start =>
  match parser start with
  | none => none
  | some (.done remaining output) => some (.done remaining output)
  | some (.fail remaining contexts message) => some (.fail remaining (name :: contexts) message)

def lookAhead (parser : Runner α) : Runner α := fun start =>
  match parser start with
  | none => none
  | some (.done _ output) => some (.done start output)
  | some (.fail remaining contexts message) => some (.fail remaining contexts message)

def notFollowedBy (parser : Runner α) : Runner Unit := fun start =>
  match parser start with
  | none => none
  | some (.done _ _) => some (.failAt start "notFollowedBy")
  | some (.fail _ _ _) => some (.done start ())

def recognize (parser : Runner α) : Runner String := fun start =>
  match parser start with
  | none => none
  | some (.done remaining _) =>
    some (.done remaining (String.ofList (remaining.consumedSince start)))
  | some (.fail remaining contexts message) => some (.fail remaining contexts message)

def optional (parser : Runner α) : Runner (Option α) := fun start =>
  match parser start with
  | none => none
  | some (.done remaining output) => some (.done remaining (some output))
  | some (.fail remaining contexts message) =>
    if remaining.movedFrom start then
      some (.fail remaining contexts message)
    else
      some (.done start none)

/-- Absorbs outputs until a reply does not move from where it started. A failure further on is the
failure of the whole. Of rounds that go forward there are no more than characters ahead. -/
def repeatFrom (item : Runner β) (absorb : α → β → α) :
    List Char → Cursor → α → Option (Reply α)
  | rounds, current, gathered =>
    match item current with
    | none => none
    | some reply =>
      if reply.remaining.movedFrom current then
        match reply with
        | .fail remaining contexts message => some (.fail remaining contexts message)
        | .done remaining output =>
          match rounds with
          | [] => none
          | _ :: rounds => repeatFrom item absorb rounds remaining (absorb gathered output)
      else
        some (.done current gathered)

def collectFrom (item : Runner α) (items : List α) : Runner (List α) := fun start =>
  (repeatFrom item (fun items output => output :: items) start.ahead start items).map
    (Reply.map List.reverse)

def many (item : Runner α) : Runner (List α) :=
  collectFrom item []

def many1 (item : Runner α) : Runner (List α) := fun start =>
  match item start with
  | none => none
  | some (.done remaining output) => collectFrom item [output] remaining
  | some (.fail remaining contexts message) => some (.fail remaining contexts message)

def countFrom (item : Runner α) : Nat → Cursor → List α → Option (Reply (List α))
  | 0, current, items => some (.done current items.reverse)
  | count + 1, current, items =>
    match item current with
    | none => none
    | some (.done remaining output) => countFrom item count remaining (output :: items)
    | some (.fail remaining contexts message) => some (.fail remaining contexts message)

def count (count : Nat) (item : Runner α) : Runner (List α) := fun start =>
  countFrom item count start []

/-- Collects items up to the first place where `final` succeeds. No round has to move, so that
nothing bounds their number. -/
def manyTillFrom (item : Runner α) (final : Runner β) (current : Cursor) (items : List α) :
    Option (Reply (List α)) :=
  match final current with
  | none => none
  | some (.done remaining _) => some (.done remaining items.reverse)
  | some (.fail remaining contexts message) =>
    if remaining.movedFrom current then
      some (.fail remaining contexts message)
    else
      match item current with
      | none => none
      | some (.fail remaining contexts message) => some (.fail remaining contexts message)
      | some (.done remaining output) => item |>.manyTillFrom final remaining (output :: items)
partial_fixpoint

def manyTill (item : Runner α) (final : Runner β) : Runner (List α) := fun start =>
  manyTillFrom item final start []

def sepBy1 (item : Runner α) (separator : Runner β) : Runner (List α) := fun start =>
  match item start with
  | none => none
  | some (.done remaining output) => collectFrom (seqRight separator item) [output] remaining
  | some (.fail remaining contexts message) => some (.fail remaining contexts message)

def sepBy (item : Runner α) (separator : Runner β) : Runner (List α) := fun start =>
  match sepBy1 item separator start with
  | none => none
  | some reply => if reply.failsAt start then some (.done start []) else some reply

def chainl1 (operand : Runner α) (operator : Runner (α → α → α)) : Runner α := fun start =>
  match operand start with
  | none => none
  | some (.done remaining output) =>
    repeatFrom (zip operator operand) (fun left (apply, right) => apply left right)
      remaining.ahead remaining output
  | some (.fail remaining contexts message) => some (.fail remaining contexts message)

end Runner

end CombinatorJson
