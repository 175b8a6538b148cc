import CombinatorJson.Text.Characters

set_option autoImplicit false

namespace CombinatorJson

def utf8Length : List Char → Nat
  | [] => 0
  | c :: rest => c.utf8Size + utf8Length rest

@[simp] theorem utf8Length_nil : utf8Length [] = 0 :=
  rfl

@[simp] theorem utf8Length_cons (c : Char) (rest : List Char) :
    utf8Length (c :: rest) = c.utf8Size + utf8Length rest :=
  rfl

@[simp] theorem utf8Length_append (front rest : List Char) :
    utf8Length (front ++ rest) = utf8Length front + utf8Length rest := by
  induction front with
  | nil => simp
  | cons c front ih => simp [ih, Nat.add_assoc]

@[simp] theorem utf8Length_reverse (text : List Char) :
    utf8Length text.reverse = utf8Length text := by
  induction text with
  | nil => rfl
  | cons c rest ih => simp [ih, Nat.add_comm]

/-- A place between two characters of a buffer: the text behind it, nearest character first, and the
text ahead. The offset counts bytes of UTF-8. Two buffers may hold equal texts and differ. -/
structure Cursor where
  buffer : Nat
  behind : List Char
  ahead : List Char
  offset : Nat
  offset_eq : offset = utf8Length behind

namespace Cursor

def start (buffer : Nat) (text : List Char) : Cursor :=
  ⟨buffer, [], text, 0, rfl⟩

def text (cursor : Cursor) : List Char :=
  cursor.behind.reverse ++ cursor.ahead

def sourceLength (cursor : Cursor) : Nat :=
  cursor.offset + utf8Length cursor.ahead

def peek? (cursor : Cursor) : Option Char :=
  cursor.ahead.head?

def atEnd (cursor : Cursor) : Bool :=
  cursor.ahead.isEmpty

def advance (count : Nat) (cursor : Cursor) : Cursor :=
  let passed := cursor.ahead.take count
  { buffer := cursor.buffer
    behind := passed.reverse ++ cursor.behind
    ahead := cursor.ahead.drop count
    offset := cursor.offset + utf8Length passed
    offset_eq := by simp [cursor.offset_eq, Nat.add_comm] }

@[simp] theorem buffer_advance (count : Nat) (cursor : Cursor) :
    (cursor.advance count).buffer = cursor.buffer :=
  rfl

@[simp] theorem ahead_advance (count : Nat) (cursor : Cursor) :
    (cursor.advance count).ahead = cursor.ahead.drop count :=
  rfl

@[simp] theorem text_advance (count : Nat) (cursor : Cursor) :
    (cursor.advance count).text = cursor.text := by
  simp [text, advance]

theorem offset_le_offset_advance (count : Nat) (cursor : Cursor) :
    cursor.offset ≤ (cursor.advance count).offset :=
  Nat.le_add_right _ _

/-- The characters that a text begins with, up to `bytes` bytes. -/
def takeBytes : Nat → List Char → List Char
  | _, [] => []
  | bytes, c :: rest => if bytes = 0 then [] else c :: takeBytes (bytes - c.utf8Size) rest

/-- The text from `origin` to the cursor; nothing if the order is wrong or the buffers differ. -/
def consumedSince (cursor origin : Cursor) : List Char :=
  if cursor.buffer = origin.buffer then
    takeBytes (cursor.offset - origin.offset) origin.ahead
  else
    []

def line (cursor : Cursor) : Nat :=
  cursor.behind.count '\n' + 1

def column (cursor : Cursor) : Nat :=
  (cursor.behind.takeWhile (· ≠ '\n')).length + 1

instance : BEq Cursor where
  beq left right := left.buffer == right.buffer && left.offset == right.offset

def movedFrom (remaining origin : Cursor) : Bool :=
  remaining.offset != origin.offset

def display (cursor : Cursor) : String :=
  "Input \x7b offset: " ++ toString cursor.offset ++ ", remainder: " ++
    String.ofList (Quoted.quote cursor.ahead) ++ " \x7d"

end Cursor

end CombinatorJson
