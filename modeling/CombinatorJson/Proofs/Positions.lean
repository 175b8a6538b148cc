import CombinatorJson.Json.Grammar
import CombinatorJson.Proofs.Slices
import Mathlib.Data.Prod.Lex

set_option autoImplicit false

namespace CombinatorJson

def nextPosition (position : Nat × Nat) (c : Char) : Nat × Nat :=
  if c = '\n' then (position.1 + 1, 1) else (position.1, position.2 + 1)

def positionBehind (text : List Char) : Nat × Nat :=
  text.foldl nextPosition (1, 1)

theorem nextPosition_lt (position : Nat × Nat) (c : Char) :
    toLex position < toLex (nextPosition position c) := by
  rw [Prod.Lex.toLex_lt_toLex, nextPosition]
  split
  · exact .inl (Nat.lt_succ_self _)
  · exact .inr ⟨rfl, Nat.lt_succ_self _⟩

theorem foldl_nextPosition_le (text : List Char) (position : Nat × Nat) :
    toLex position ≤ toLex (text.foldl nextPosition position) := by
  induction text generalizing position with
  | nil => exact le_refl _
  | cons c rest ih => exact (nextPosition_lt position c).le.trans (ih (nextPosition position c))

theorem positionBehind_lt (front : List Char) {more : List Char} (nonempty : more ≠ []) :
    toLex (positionBehind front) < toLex (positionBehind (front ++ more)) := by
  obtain ⟨c, rest, rfl⟩ := List.exists_cons_of_ne_nil nonempty
  have first := nextPosition_lt (positionBehind front) c
  have later := foldl_nextPosition_le rest (nextPosition (positionBehind front) c)
  have whole : positionBehind (front ++ c :: rest) =
      rest.foldl nextPosition (nextPosition (positionBehind front) c) := by
    rw [positionBehind, List.foldl_append, List.foldl_cons, ← positionBehind]
  exact whole ▸ first.trans_le later

theorem positionBehind_reverse (behind : List Char) :
    positionBehind behind.reverse =
      (behind.count '\n' + 1, (behind.takeWhile (· ≠ '\n')).length + 1) := by
  induction behind with
  | nil => rfl
  | cons c rest ih =>
    have last : positionBehind (c :: rest).reverse = nextPosition (positionBehind rest.reverse) c := by
      simp [positionBehind]
    rw [last, ih, nextPosition]
    by_cases newline : c = '\n' <;> simp [newline]

def lastOffset? (wanted : Char) : List Char → Option Nat
  | [] => none
  | c :: rest =>
    match lastOffset? wanted rest with
    | some offset => some (c.utf8Size + offset)
    | none => if c = wanted then some 0 else none

theorem lastOffset?_of_not_mem {wanted : Char} {text : List Char} (absent : wanted ∉ text) :
    lastOffset? wanted text = none := by
  induction text with
  | nil => rfl
  | cons c rest ih =>
    have differs : c ≠ wanted := (List.ne_of_not_mem_cons absent).symm
    simp [lastOffset?, ih (List.not_mem_of_not_mem_cons absent), differs]

theorem lastOffset?_append {wanted : Char} {line : List Char} (front : List Char)
    (absent : wanted ∉ line) :
    lastOffset? wanted (front ++ wanted :: line) = some (utf8Length front) := by
  induction front with
  | nil => simp [lastOffset?, lastOffset?_of_not_mem absent]
  | cons c front ih => simp [lastOffset?, ih]

/-- The offset in bytes at which the last line of a text begins. -/
def lineStart (text : List Char) : Nat :=
  (lastOffset? '\n' text).elim 0 (· + 1)

theorem takeWhile_append_of_not_mem {line : List Char} (absent : '\n' ∉ line) (rest : List Char) :
    (line ++ rest).takeWhile (· ≠ '\n') = line ++ rest.takeWhile (· ≠ '\n') := by
  apply List.takeWhile_append_of_pos
  intro c member
  exact decide_eq_true (ne_of_mem_of_not_mem member absent)

theorem slice?_lineStart (behind : List Char) :
    slice? (String.ofList behind.reverse) (lineStart behind.reverse) (utf8Length behind) =
      some (String.ofList (behind.takeWhile (· ≠ '\n')).reverse) := by
  by_cases present : '\n' ∈ behind
  · obtain ⟨line, front, rfl, absent⟩ := List.eq_append_cons_of_mem present
    have taken : (line ++ '\n' :: front).takeWhile (· ≠ '\n') = line := by
      rw [takeWhile_append_of_not_mem absent]
      simp
    have split : (line ++ '\n' :: front).reverse = front.reverse ++ '\n' :: line.reverse := by simp
    -- A newline takes one byte, so the line begins with the next one.
    have begins : lineStart (front.reverse ++ '\n' :: line.reverse) =
        utf8Length (front.reverse ++ ['\n']) := by
      rw [lineStart, lastOffset?_append front.reverse (mt List.mem_reverse.mp absent),
        utf8Length_append]
      rfl
    have ends : utf8Length (line ++ '\n' :: front) =
        utf8Length (front.reverse ++ ['\n']) + utf8Length line.reverse := by
      simp
      omega
    have sliced := slice?_ofList (front.reverse ++ ['\n']) line.reverse []
    rw [taken, split, begins, ends]
    simpa using sliced
  · have taken : behind.takeWhile (· ≠ '\n') = behind := by
      simpa using takeWhile_append_of_not_mem present []
    have begins : lineStart behind.reverse = 0 := by
      rw [lineStart, lastOffset?_of_not_mem (mt List.mem_reverse.mp present)]
      rfl
    have sliced := slice?_ofList [] behind.reverse []
    rw [taken, begins]
    simpa using sliced

namespace Cursor

variable {start later : Cursor}

/-- The line and column found by search: the newlines behind the cursor are counted, and then the
characters of the slice that begins with the byte behind the last of them. -/
def searchedPosition? (cursor : Cursor) : Option (Nat × Nat) := do
  let front ← cursor.front?
  let line ← slice? front (lineStart front.toList) front.utf8ByteSize
  return (front.toList.count '\n' + 1, line.length + 1)

theorem searchedPosition?_eq (cursor : Cursor) :
    cursor.searchedPosition? = some (cursor.line, cursor.column) := by
  have sliced := slice?_lineStart cursor.behind
  simp [searchedPosition?, front?_eq, utf8ByteSize_ofList, sliced, line, column]

theorem positionBehind_eq (cursor : Cursor) :
    positionBehind cursor.behind.reverse = (cursor.line, cursor.column) :=
  positionBehind_reverse cursor.behind

theorem position_lt (same : later.text = start.text) (before : start.offset < later.offset) :
    toLex (start.line, start.column) < toLex (later.line, later.column) := by
  obtain ⟨between, behind, ahead⟩ := exists_between same before.le
  have nonempty : between ≠ [] := by
    rintro rfl
    have offset := congrArg utf8Length behind
    rw [List.append_nil, ← start.offset_eq_front.2, ← later.offset_eq_front.2] at offset
    omega
  rw [← positionBehind_eq, ← positionBehind_eq, behind]
  exact positionBehind_lt start.behind.reverse nonempty

theorem eq_of_position (buffer : later.buffer = start.buffer) (same : later.text = start.text)
    (position : (later.line, later.column) = (start.line, start.column)) : later = start := by
  rcases Nat.lt_trichotomy start.offset later.offset with before | level | after
  · exact absurd (position ▸ position_lt same before) (lt_irrefl _)
  · exact (Reaches.of_offset_le buffer same level.le).eq_of_offset level.symm
  · exact absurd (position ▸ position_lt same.symm after) (lt_irrefl _)

end Cursor

namespace SyntaxError

/-- The error lies in the text, behind `front`: what remains there is the rest of the text, the line
and column are those behind `front`, and one character is marked, or none at the end. -/
structure LiesBehind (error : SyntaxError) (text front : String) : Prop where
  front_eq : slice? text 0 error.offset = some front
  text_eq : text = front ++ error.remaining
  position_eq : (error.line, error.column) = positionBehind front.toList
  mark : ∃ width, error.labels = [(error.offset, width, error.message)] ∧
    error.offset + width ≤ text.utf8ByteSize ∧
      ((error.remaining = "" ∧ width = 0) ∨
        ∃ c, error.remaining.toList.head? = some c ∧
          slice? text error.offset (error.offset + width) = some (String.singleton c))

theorem ofCursor_liesBehind (place : Cursor) (contexts : List String) (message : String) :
    (ofCursor place contexts message).LiesBehind place.source
      (String.ofList place.behind.reverse) where
  front_eq := place.front?_eq
  text_eq := String.ofList_append
  position_eq := by
    rw [String.toList_ofList, place.positionBehind_eq]
    rfl
  mark := by
    have offset := place.offset_eq_front.2
    refine ⟨_, rfl, ?_⟩
    rw [place.utf8ByteSize_source]
    cases ahead : place.ahead with
    | nil => simp [ofCursor, Cursor.peek?, ahead]
    | cons c rest =>
      have sliced := slice?_ofList place.behind.reverse [c] rest
      have marked : slice? place.source place.offset (place.offset + c.utf8Size) =
          some (String.singleton c) := by
        simpa [Cursor.source, Cursor.text, ahead, offset] using sliced
      simp [ofCursor, Cursor.peek?, ahead, marked]

end SyntaxError

namespace Json

open CombinatorJson.Grammar

theorem error_of_parse {text : String} {error : SyntaxError} (failed : parse text = .error error) :
    ∃ place contexts message, place.source = text ∧
      error = SyntaxError.ofCursor place contexts message := by
  have whole := Cursor.source_start 0 text
  unfold parse at failed
  split at failed
  · contradiction
  · next remaining contexts message replied =>
    cases failed
    have reached : (Cursor.start 0 text.toList).Reaches remaining :=
      Parser.run_forward _ document _ _ replied
    exact ⟨remaining, contexts, message, reached.source_eq.trans whole, rfl⟩
  · cases failed
    exact ⟨_, [], _, whole, rfl⟩

/-- The line and column of a cursor are what a search finds behind it, and what reading the text
behind it one character at a time counts. They grow along the text, so that no two cursors of one
text share them. An error, at whatever cursor it is made, has the position of that cursor and marks
the character there; the error of a text lies in that text. -/
theorem positions_agree :
    (∀ place : Cursor, place.searchedPosition? = some (place.line, place.column) ∧
        ∃ front, place.front? = some front ∧
          positionBehind front.toList = (place.line, place.column)) ∧
      (∀ start later : Cursor, later.text = start.text → start.offset < later.offset →
        toLex (start.line, start.column) < toLex (later.line, later.column)) ∧
      (∀ start later : Cursor, later.buffer = start.buffer → later.text = start.text →
        (later.line, later.column) = (start.line, start.column) → later = start) ∧
      (∀ place contexts message, ∃ front,
        (SyntaxError.ofCursor place contexts message).LiesBehind place.source front) ∧
      ∀ text error, parse text = .error error → ∃ front, error.LiesBehind text front := by
  refine ⟨?_, ?_, ?_, ?_, ?_⟩
  · intro place
    refine ⟨place.searchedPosition?_eq, _, place.front?_eq, ?_⟩
    rw [String.toList_ofList, place.positionBehind_eq]
  · intro start later same before
    exact Cursor.position_lt same before
  · intro start later buffer same position
    exact Cursor.eq_of_position buffer same position
  · intro place contexts message
    exact ⟨_, SyntaxError.ofCursor_liesBehind place contexts message⟩
  · intro text error failed
    obtain ⟨place, contexts, message, rfl, rfl⟩ := error_of_parse failed
    exact ⟨_, SyntaxError.ofCursor_liesBehind place contexts message⟩

theorem positions_agree_second_line :
    let start := Cursor.advance 2 (.start 0 "[1,\n  x]".toList)
    let later := Cursor.advance 6 (.start 0 "[1,\n  x]".toList)
    (later.text = start.text ∧ start.offset < later.offset ∧
        toLex (start.line, start.column) < toLex (later.line, later.column)) ∧
      ((start.advance 4).buffer = later.buffer ∧ (start.advance 4).text = later.text ∧
        ((start.advance 4).line, (start.advance 4).column) = (later.line, later.column) ∧
        start.advance 4 = later) ∧
      ∃ error, parse "[1,\n  x]" = .error error ∧ (error.line, error.column) = (2, 3) ∧
        ∃ front, error.LiesBehind "[1,\n  x]" front := by
  intro start later
  have before : start.offset < later.offset := by decide
  have position : ((start.advance 4).line, (start.advance 4).column) = (later.line, later.column) :=
    by decide
  obtain ⟨-, grows, tells, -, lies⟩ := positions_agree
  exact ⟨⟨rfl, before, grows start later rfl before⟩,
    ⟨rfl, rfl, position, tells later (start.advance 4) rfl rfl position⟩,
    _, rfl, rfl, lies _ _ rfl⟩

end Json

end CombinatorJson
