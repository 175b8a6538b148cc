import CombinatorJson.Cursor

set_option autoImplicit false

namespace CombinatorJson

/-- The labels of the parsers active at a failure come outermost first. -/
inductive Reply (α : Type) where
  | done (remaining : Cursor) (output : α)
  | fail (remaining : Cursor) (contexts : List String) (message : String)

namespace Reply

variable {α β : Type}

def failAt (cursor : Cursor) (message : String) : Reply α :=
  .fail cursor [] message

def remaining : Reply α → Cursor
  | .done remaining _ => remaining
  | .fail remaining _ _ => remaining

def isDone : Reply α → Bool
  | .done .. => true
  | .fail .. => false

def isFail : Reply α → Bool
  | .done .. => false
  | .fail .. => true

def map (f : α → β) : Reply α → Reply β
  | .done remaining output => .done remaining (f output)
  | .fail remaining contexts message => .fail remaining contexts message

@[simp] theorem remaining_map (f : α → β) (reply : Reply α) :
    (reply.map f).remaining = reply.remaining := by
  cases reply <;> rfl

/-- A failure that did not move from `origin`, the only kind that alternation recovers from. -/
def failsAt (origin : Cursor) : Reply α → Bool
  | .done .. => false
  | .fail remaining _ _ => !remaining.movedFrom origin

instance [BEq α] : BEq (Reply α) where
  beq
    | .done remaining output, .done remaining' output' =>
      remaining == remaining' && output == output'
    | .fail remaining contexts message, .fail remaining' contexts' message' =>
      remaining == remaining' && contexts == contexts' && message == message'
    | _, _ => false

end Reply

end CombinatorJson
