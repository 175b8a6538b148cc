import CombinatorJson.Cursor

set_option autoImplicit false

namespace CombinatorJson

namespace Cursor

variable {start : Cursor} {text rest : List Char}

theorem ext_of_parts {left right : Cursor} (buffer : left.buffer = right.buffer)
    (behind : left.behind = right.behind) (ahead : left.ahead = right.ahead) : left = right := by
  obtain ⟨_, _, _, leftOffset, leftEq⟩ := left
  obtain ⟨_, _, _, rightOffset, rightEq⟩ := right
  simp only at buffer behind ahead
  subst buffer behind ahead
  have offsets : leftOffset = rightOffset := leftEq.trans rightEq.symm
  subst offsets
  rfl

@[simp] theorem behind_advance (count : Nat) (cursor : Cursor) :
    (cursor.advance count).behind = (cursor.ahead.take count).reverse ++ cursor.behind :=
  rfl

@[simp] theorem advance_zero (cursor : Cursor) : cursor.advance 0 = cursor := by
  apply ext_of_parts <;> simp

theorem advance_advance (first second : Nat) (cursor : Cursor) :
    (cursor.advance first).advance second = cursor.advance (first + second) := by
  apply ext_of_parts <;> simp [List.take_add]

theorem ahead_advance_length (ahead : start.ahead = text ++ rest) :
    (start.advance text.length).ahead = rest := by
  simp [ahead]

theorem offset_advance_length (ahead : start.ahead = text ++ rest) :
    (start.advance text.length).offset = start.offset + utf8Length text := by
  simp [advance, ahead]

theorem utf8Length_eq_zero (text : List Char) : utf8Length text = 0 ↔ text = [] := by
  cases text with
  | nil => simp
  | cons c rest =>
    have positive := Char.utf8Size_pos c
    simp only [utf8Length_cons, reduceCtorEq, iff_false]
    omega

theorem movedFrom_advance_length (ahead : start.ahead = text ++ rest) :
    (start.advance text.length).movedFrom start = !text.isEmpty := by
  have same : start.offset + utf8Length text = start.offset ↔ text = [] := by
    rw [← utf8Length_eq_zero]
    omega
  simp only [movedFrom, offset_advance_length ahead]
  cases text <;> simp_all

theorem takeBytes_utf8Length (text rest : List Char) :
    takeBytes (utf8Length text) (text ++ rest) = text := by
  -- Every character has bytes, so the count of bytes runs out exactly with the text.
  induction text with
  | nil => cases rest <;> simp [takeBytes]
  | cons c text ih =>
    have positive := Char.utf8Size_pos c
    have nonzero : utf8Length (c :: text) ≠ 0 := by
      rw [utf8Length_cons]
      omega
    have less : utf8Length (c :: text) - c.utf8Size = utf8Length text := by
      rw [utf8Length_cons]
      omega
    rw [List.cons_append, takeBytes, if_neg nonzero, less, ih]

theorem consumedSince_advance_length (ahead : start.ahead = text ++ rest) :
    (start.advance text.length).consumedSince start = text := by
  have bytes : start.offset + utf8Length text - start.offset = utf8Length text := by omega
  simp only [consumedSince, buffer_advance, if_true, offset_advance_length ahead, bytes, ahead]
  exact takeBytes_utf8Length text rest

end Cursor

end CombinatorJson
