import CombinatorJson.Cursor

set_option autoImplicit false

namespace CombinatorJson

/-- `width` is the length of the character at the failure in bytes, and zero at the end. -/
structure SyntaxError where
  remaining : String
  contexts : List String
  message : String
  offset : Nat
  line : Nat
  column : Nat
  width : Nat
deriving DecidableEq

namespace SyntaxError

def ofCursor (place : Cursor) (contexts : List String) (message : String) : SyntaxError where
  remaining := String.ofList place.ahead
  contexts := contexts
  message := message
  offset := place.offset
  line := place.line
  column := place.column
  width := (place.peek?.map Char.utf8Size).getD 0

def trail (error : SyntaxError) : String :=
  " > ".intercalate error.contexts

def text (error : SyntaxError) : String :=
  let position := s!"{error.message} at line {error.line}, column {error.column}"
  if error.contexts.isEmpty then position else s!"{position} (in {error.trail})"

def help? (error : SyntaxError) : Option String :=
  if error.contexts.isEmpty then none else some s!"while parsing {error.trail}"

def code : String :=
  "syntax"

def labels (error : SyntaxError) : List (Nat × Nat × String) :=
  [(error.offset, error.width, error.message)]

end SyntaxError

end CombinatorJson
