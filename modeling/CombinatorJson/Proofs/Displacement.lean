import CombinatorJson.Proofs.Lockstep

set_option autoImplicit false

namespace CombinatorJson

namespace Correspondence

/-- The same text ahead, as far from `start` in one buffer as from `start'` in the other. -/
def Displaced (start start' left right : Cursor) : Prop :=
  (left.buffer = start.buffer ∧ right.buffer = start'.buffer) ∧
    left.ahead = right.ahead ∧ right.offset + start.offset = left.offset + start'.offset

theorem laws_displaced (start start' : Cursor) : Laws (Displaced start start') Eq where
  ahead_eq place := place.2.1
  advance {left right} count place := by
    obtain ⟨buffers, ahead, distance⟩ := place
    refine ⟨buffers, by simp [ahead], ?_⟩
    simp only [Cursor.advance, ahead]
    omega
  movedFrom_eq {origin origin' left right} before place := by
    obtain ⟨-, -, distance⟩ := before
    obtain ⟨-, -, distance'⟩ := place
    have same : left.offset = origin.offset ↔ right.offset = origin'.offset := by omega
    rw [Cursor.movedFrom, Cursor.movedFrom, Bool.eq_iff_iff, bne_iff_ne, bne_iff_ne]
    exact not_congr same
  consumedSince_eq {origin origin' left right} before place := by
    obtain ⟨⟨buffer, buffer'⟩, ahead, distance⟩ := before
    obtain ⟨⟨sameBuffer, sameBuffer'⟩, -, distance'⟩ := place
    -- Both buffers agree with those at the start, so neither text is refused.
    have taken : left.offset - origin.offset = right.offset - origin'.offset := by omega
    simp only [Cursor.consumedSince, buffer, buffer', sameBuffer, sameBuffer', if_true, taken, ahead]
  noContexts := rfl

def displaced (start start' : Cursor) : Correspondence where
  Place := Displaced start start'
  Contexts := Eq
  laws := laws_displaced start start'

end Correspondence

namespace Parser

variable {N : Type → Type} (rules : {β : Type} → N β → Parser N β) {α : Type}

theorem run_of_same_ahead (depth : Nat) (parser : Parser N α) {start start' : Cursor}
    (same : start.ahead = start'.ahead) :
    Option.Rel (Reply.Alike (fun place place' => place.ahead = place'.ahead ∧
        place'.offset + start.offset = place.offset + start'.offset) Eq)
      (parser.run rules depth start) (parser.run rules depth start') := by
  have here : (Correspondence.displaced start start').Place start start' :=
    ⟨⟨rfl, rfl⟩, same, Nat.add_comm _ _⟩
  have step := run_lockstep (R := .displaced start start')
    (fun name _ _ same => congrArg (name :: ·) same) rules depth parser
  exact Reply.Alike.rel_mono (step start start' here) fun _ _ place => place.2

theorem run_displaced (depth : Nat) (parser : Parser N α) (buffer buffer' : Nat)
    (before text : List Char) :
    Option.Rel (Reply.Alike (fun place place' => place'.ahead = place.ahead ∧
        place'.offset = utf8Length before + place.offset) Eq)
      (parser.run rules depth (.start buffer text))
      (parser.run rules depth (Cursor.advance before.length (.start buffer' (before ++ text)))) := by
  have split : (Cursor.start buffer' (before ++ text)).ahead = before ++ text := rfl
  have same := Cursor.ahead_advance_length split
  have distance := Cursor.offset_advance_length split
  refine Reply.Alike.rel_mono (run_of_same_ahead rules depth parser same.symm) ?_
  rintro place place' ⟨ahead, offset⟩
  rw [distance] at offset
  refine ⟨ahead.symm, ?_⟩
  simp only [Cursor.start] at offset
  omega

end Parser

end CombinatorJson
