import CombinatorJson.Proofs.Path
import CombinatorJson.Runner

set_option autoImplicit false

namespace CombinatorJson

namespace Runner

variable {α β : Type}

def Absent (parser : Runner β) (place : Cursor) : Prop :=
  ∃ reply, parser place = some reply ∧ reply.failsAt place = true

/-- One round: the end does not begin here, and the item leads on. -/
def Approaches (item : Runner α) (final : Runner β) (start : Cursor) (output : α)
    (middle : Cursor) : Prop :=
  final.Absent start ∧ item start = some (.done middle output)

/-- How a repetition up to an end ends at a place, with the items before it. -/
inductive Concludes (item : Runner α) (final : Runner β) (last : Cursor) (items : List α) :
    Reply (List α) → Prop where
  | found {remaining : Cursor} {output : β} (matched : final last = some (.done remaining output)) :
      Concludes item final last items (.done remaining items)
  | broken {remaining : Cursor} {contexts : List String} {message : String}
      (failed : final last = some (.fail remaining contexts message))
      (moved : remaining.movedFrom last = true) :
      Concludes item final last items (.fail remaining contexts message)
  | refused {remaining : Cursor} {contexts : List String} {message : String}
      (absent : final.Absent last) (failed : item last = some (.fail remaining contexts message)) :
      Concludes item final last items (.fail remaining contexts message)

variable {item : Runner α} {final : Runner β} {start middle last : Cursor} {items outputs : List α}
  {reply : Reply (List α)}

theorem failsAt_iff_not_moved {remaining origin : Cursor} {contexts : List String}
    {message : String} : (Reply.fail remaining contexts message : Reply β).failsAt origin = true ↔
      ¬remaining.movedFrom origin = true := by
  simp [Reply.failsAt]

theorem Absent.failsAt {reply : Reply β} (absent : final.Absent start)
    (replied : final start = some reply) : reply.failsAt start = true := by
  obtain ⟨reply', replied', stays⟩ := absent
  rw [replied] at replied'
  cases replied'
  exact stays

theorem Absent.exists_fail (absent : final.Absent start) : ∃ remaining contexts message,
    final start = some (.fail remaining contexts message) ∧ ¬remaining.movedFrom start = true := by
  obtain ⟨stop, stopped, stays⟩ := absent
  cases stop with
  | done => contradiction
  | fail remaining contexts message => exact ⟨_, _, _, stopped, failsAt_iff_not_moved.mp stays⟩

theorem manyTillFrom_of_approaches {output : α}
    (approaches : Approaches item final start output middle) (items : List α) :
    manyTillFrom item final start items = manyTillFrom item final middle (output :: items) := by
  obtain ⟨absent, replied⟩ := approaches
  obtain ⟨remaining, contexts, message, stopped, here⟩ := absent.exists_fail
  rw [manyTillFrom, stopped, replied]
  simp only [here, if_false, Bool.false_eq_true]

theorem manyTillFrom_of_concludes (concludes : Concludes item final last items.reverse reply) :
    manyTillFrom item final last items = some reply := by
  rw [manyTillFrom]
  cases concludes with
  | found matched => rw [matched]
  | broken failed moved =>
    rw [failed]
    simp only [moved, if_true]
  | refused absent failed =>
    obtain ⟨remaining, contexts, message, stopped, here⟩ := absent.exists_fail
    rw [stopped, failed]
    simp only [here, if_false, Bool.false_eq_true]

theorem manyTillFrom_of_path (path : Path (Approaches item final) start outputs last)
    (concludes : Concludes item final last (items.reverse ++ outputs) reply) :
    manyTillFrom item final start items = some reply := by
  induction path generalizing items with
  | here =>
    rw [List.append_nil] at concludes
    exact manyTillFrom_of_concludes concludes
  | step first _ ih =>
    rw [manyTillFrom_of_approaches first]
    apply ih
    simpa using concludes

theorem exists_path_of_manyTillFrom (given : manyTillFrom item final start items = some reply) :
    ∃ outputs last, Path (Approaches item final) start outputs last ∧
      Concludes item final last (items.reverse ++ outputs) reply := by
  revert given
  apply manyTillFrom.partial_correctness item final fun start items reply =>
    ∃ outputs last, Path (Approaches item final) start outputs last ∧
      Concludes item final last (items.reverse ++ outputs) reply
  intro later ih current items reply given
  -- This round is the last one, or the rest of the path is that of the rounds after it.
  split at given
  · contradiction
  · next stopped =>
    cases given
    refine ⟨[], current, .here current, ?_⟩
    rw [List.append_nil]
    exact .found stopped
  · next remaining contexts message stopped =>
    split at given
    · next moved =>
      cases given
      exact ⟨[], current, .here current, .broken stopped moved⟩
    · next stayed =>
      have absent : final.Absent current := ⟨_, stopped, failsAt_iff_not_moved.mpr stayed⟩
      split at given
      · contradiction
      · next failed =>
        cases given
        exact ⟨[], current, .here current, .refused absent failed⟩
      · next middle output replied =>
        obtain ⟨outputs, last, path, concludes⟩ := ih _ _ _ given
        refine ⟨output :: outputs, last, .step ⟨absent, replied⟩ path, ?_⟩
        simpa using concludes

theorem manyTill_eq_some_iff :
    manyTill item final start = some reply ↔
      ∃ outputs last, Path (Approaches item final) start outputs last ∧
        Concludes item final last outputs reply := by
  constructor
  · exact exists_path_of_manyTillFrom
  · rintro ⟨outputs, last, path, concludes⟩
    exact manyTillFrom_of_path path concludes

/-- The items before the first place where the end matches, or the first failure before such a
place: of the end beyond its start, or of an item. Only a run without such a place never returns,
wherever the items lead. -/
theorem manyTill_outcome (item : Runner α) (final : Runner β) (start : Cursor) :
    (∀ remaining outputs, manyTill item final start = some (.done remaining outputs) ↔
      ∃ last output, Path (Approaches item final) start outputs last ∧
        final last = some (.done remaining output)) ∧
    ∀ remaining contexts message,
      manyTill item final start = some (.fail remaining contexts message) ↔
        ∃ outputs last, Path (Approaches item final) start outputs last ∧
          (final last = some (.fail remaining contexts message) ∧ remaining.movedFrom last = true ∨
            final.Absent last ∧ item last = some (.fail remaining contexts message)) := by
  constructor
  · intro remaining outputs
    rw [manyTill_eq_some_iff]
    constructor
    · rintro ⟨outputs', last, path, concludes⟩
      cases concludes with
      | found matched => exact ⟨last, _, path, matched⟩
    · rintro ⟨last, output, path, matched⟩
      exact ⟨outputs, last, path, .found matched⟩
  · intro remaining contexts message
    rw [manyTill_eq_some_iff]
    constructor
    · rintro ⟨outputs, last, path, concludes⟩
      cases concludes with
      | broken failed moved => exact ⟨outputs, last, path, .inl ⟨failed, moved⟩⟩
      | refused absent failed => exact ⟨outputs, last, path, .inr ⟨absent, failed⟩⟩
    · rintro ⟨outputs, last, path, ⟨failed, moved⟩ | ⟨absent, failed⟩⟩
      · exact ⟨outputs, last, path, .broken failed moved⟩
      · exact ⟨outputs, last, path, .refused absent failed⟩

theorem manyTill_outcome_comment :
    manyTill (satisfy fun _ => true) (literal "*/") (.start 0 "hi*/x".toList) =
      some (.done (Cursor.advance 4 (.start 0 "hi*/x".toList)) ['h', 'i']) ∧
    manyTill (satisfy fun _ => true) (literal "*/") (.start 0 "a**/".toList) =
      some (.fail (Cursor.advance 2 (.start 0 "a**/".toList)) [] "satisfy") ∧
    manyTill (fun _ => some (.done (.start 0 [';']) 'x')) (satisfy (· == ';'))
        (Cursor.advance 1 (.start 0 [';'])) =
      some (.done (Cursor.advance 1 (.start 0 [';'])) ['x']) := by
  refine ⟨?_, ?_, ?_⟩
  · apply ((manyTill_outcome ..).1 _ _).mpr
    exact ⟨_, _, .step ⟨⟨_, rfl, rfl⟩, rfl⟩ (.step ⟨⟨_, rfl, rfl⟩, rfl⟩ (.here _)), rfl⟩
  · apply ((manyTill_outcome ..).2 _ _ _).mpr
    exact ⟨_, _, .step ⟨⟨_, rfl, rfl⟩, rfl⟩ (.here _), .inl ⟨rfl, rfl⟩⟩
  · apply ((manyTill_outcome ..).1 _ _).mpr
    exact ⟨_, _, .step ⟨⟨_, rfl, rfl⟩, rfl⟩ (.here _), rfl⟩

end Runner

end CombinatorJson
