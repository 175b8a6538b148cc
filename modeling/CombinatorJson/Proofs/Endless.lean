import CombinatorJson.Proofs.Gathering

set_option autoImplicit false

namespace CombinatorJson

namespace Runner

variable {α β : Type} {item : Runner α} {final : Runner β} {start last : Cursor} {items : List α}

theorem approaches_single : Path.Single (Approaches item final) := by
  rintro start output middle output' middle' ⟨_, replied⟩ ⟨_, replied'⟩
  rw [replied] at replied'
  cases replied'
  exact ⟨rfl, rfl⟩

theorem Concludes.ended {reply : Reply (List α)} (concludes : Concludes item final last items reply)
    (output : α) (middle : Cursor) : ¬Approaches item final last output middle := by
  rintro ⟨absent, replied⟩
  cases concludes with
  | found matched =>
    have stays := absent.failsAt matched
    contradiction
  | broken failed moved => exact failsAt_iff_not_moved.mp (absent.failsAt failed) moved
  | refused _ failed => cases replied.symm.trans failed

theorem Steady.concludes_or_approaches (steady : item.Steady) (steady' : final.Steady)
    (current : Cursor) :
    (∀ items, ∃ reply, Concludes item final current items reply) ∨
      ∃ output middle, Approaches item final current output middle := by
  obtain ⟨stop, stopped⟩ := steady'.returns current
  obtain ⟨inner, replied⟩ := steady.returns current
  cases stop with
  | done => exact .inl fun _ => ⟨_, .found stopped⟩
  | fail remaining contexts message =>
    by_cases moved : remaining.movedFrom current = true
    · exact .inl fun _ => ⟨_, .broken stopped moved⟩
    · have absent : final.Absent current := ⟨_, stopped, failsAt_iff_not_moved.mpr moved⟩
      cases inner with
      | fail => exact .inl fun _ => ⟨_, .refused absent replied⟩
      | done middle output => exact .inr ⟨output, middle, absent, replied⟩

theorem Steady.exists_path (steady : item.Steady) (steady' : final.Steady) (current : Cursor) :
    ∃ outputs last, Path (Approaches item final) current outputs last ∧
      ((∀ items, ∃ reply, Concludes item final last items reply) ∨
        ∃ output, Approaches item final last output last) := by
  rcases steady.concludes_or_approaches steady' current with
    concludes | ⟨output, middle, approaches⟩
  · exact ⟨[], current, .here current, .inl concludes⟩
  · have reached := steady.forward current _ approaches.2
    by_cases moved : middle.movedFrom current = true
    · -- A step that moves leaves less text for the rest.
      have shorter : middle.ahead.length < current.ahead.length := reached.length_lt moved
      obtain ⟨outputs, last, path, either⟩ := steady.exists_path steady' middle
      exact ⟨output :: outputs, last, .step approaches path, either⟩
    · have here : middle = current := reached.eq_of_not_moved moved
      exact ⟨[], current, .here current, .inr ⟨output, here ▸ approaches⟩⟩
termination_by current.ahead.length

theorem Steady.manyTill (steady : item.Steady) (steady' : final.Steady) (start : Cursor) :
    (∃ reply, Runner.manyTill item final start = some reply) ∨
      ∃ outputs last output, Path (Approaches item final) start outputs last ∧
        Approaches item final last output last := by
  obtain ⟨outputs, last, path, concludes | ⟨output, loops⟩⟩ := steady.exists_path steady' start
  · obtain ⟨reply, concludes⟩ := concludes outputs
    exact .inl ⟨reply, manyTill_eq_some_iff.mpr ⟨outputs, last, path, concludes⟩⟩
  · exact .inr ⟨outputs, last, output, path, loops⟩

theorem silent_of_endless (endless : ∀ n, ∃ outputs last, outputs.length = n ∧
    Path (Approaches item final) start outputs last) : manyTill item final start = none := by
  cases returned : manyTill item final start with
  | none => rfl
  | some reply =>
    -- No path is longer than the one at whose end the run returned.
    obtain ⟨outputs, last, path, concludes⟩ := manyTill_eq_some_iff.mp returned
    obtain ⟨outputs', last', length, path'⟩ := endless (outputs.length + 1)
    obtain ⟨rest, rfl, -⟩ := path.exists_rest approaches_single concludes.ended path'
    simp only [List.length_append] at length
    omega

/-- With a steady item and end, a run returns unless it comes to a place where the end fails and
the item succeeds without moving. It does not return if and only if its rounds go on for ever. -/
theorem manyTill_returns_iff (steady : item.Steady) (steady' : final.Steady) (start : Cursor) :
    ((∃ reply, manyTill item final start = some reply) ↔
      ¬∃ outputs last output, Path (Approaches item final) start outputs last ∧
        Approaches item final last output last) ∧
    (manyTill item final start = none ↔
      ∀ n, ∃ outputs last, outputs.length = n ∧
        Path (Approaches item final) start outputs last) := by
  have either := steady.manyTill steady' start
  constructor
  · constructor
    · rintro ⟨reply, returned⟩ ⟨outputs, last, output, path, loops⟩
      have silent := silent_of_endless (path.endless loops)
      cases returned.symm.trans silent
    · exact either.resolve_right
  · constructor
    · intro silent
      rcases either with ⟨reply, returned⟩ | ⟨outputs, last, output, path, loops⟩
      · cases silent.symm.trans returned
      · exact path.endless loops
    · exact silent_of_endless

theorem manyTill_returns_iff_optional :
    (optional (satisfy (· == 'a'))).Steady ∧ (satisfy (· == ';')).Steady ∧
      (¬∃ reply, manyTill (optional (satisfy (· == 'a'))) (satisfy (· == ';'))
        (.start 0 "aab;".toList) = some reply) ∧
      ¬∃ outputs last output,
        Path (Approaches (optional (satisfy (· == 'a'))) (satisfy (· == ';')))
          (.start 0 "aa;".toList) outputs last ∧
        Approaches (optional (satisfy (· == 'a'))) (satisfy (· == ';')) last output last := by
  have steady : ((Parser.optional (Parser.char 'a') : Parser (fun _ => Empty) _).eval
      Parser.noRules).Steady :=
    Parser.eval_steady nofun trivial
  have steady' : ((Parser.char ';' : Parser (fun _ => Empty) _).eval Parser.noRules).Steady :=
    Parser.eval_steady nofun trivial
  refine ⟨steady, steady', ?_, ?_⟩
  · intro returns
    apply (manyTill_returns_iff steady steady' _).1.mp returns
    have path : Path (Approaches (optional (satisfy (· == 'a'))) (satisfy (· == ';')))
        (.start 0 "aab;".toList) [some 'a', some 'a']
        (Cursor.advance 2 (.start 0 "aab;".toList)) :=
      .step ⟨⟨_, rfl, rfl⟩, rfl⟩ (.step ⟨⟨_, rfl, rfl⟩, rfl⟩ (.here _))
    exact ⟨_, _, none, path, ⟨_, rfl, rfl⟩, rfl⟩
  · apply (manyTill_returns_iff steady steady' _).1.mp
    have path : Path (Approaches (optional (satisfy (· == 'a'))) (satisfy (· == ';')))
        (.start 0 "aa;".toList) [some 'a', some 'a']
        (Cursor.advance 2 (.start 0 "aa;".toList)) :=
      .step ⟨⟨_, rfl, rfl⟩, rfl⟩ (.step ⟨⟨_, rfl, rfl⟩, rfl⟩ (.here _))
    exact ⟨_, manyTill_eq_some_iff.mpr ⟨_, _, path, .found rfl⟩⟩

theorem manyTill_endless :
    (pure 'x').Steady ∧ (fail "e" : Runner Unit).Steady ∧
      manyTill (pure 'x') (fail "e" : Runner Unit) (.start 0 "a".toList) = none ∧
      ∀ n, Path (Approaches (pure 'x') (fail "e" : Runner Unit)) (.start 0 "a".toList)
        (List.replicate n 'x') (.start 0 "a".toList) := by
  have loops (n : Nat) : Path (Approaches (pure 'x') (fail "e" : Runner Unit))
      (.start 0 "a".toList) (List.replicate n 'x') (.start 0 "a".toList) :=
    Path.replicate ⟨⟨_, rfl, rfl⟩, rfl⟩ n
  refine ⟨⟨fun _ => ⟨_, rfl⟩, forward_pure 'x'⟩, ⟨fun _ => ⟨_, rfl⟩, forward_fail "e"⟩, ?_, loops⟩
  exact silent_of_endless fun n => ⟨_, _, List.length_replicate, loops n⟩

end Runner

end CombinatorJson
