import CombinatorJson.Cursor

set_option autoImplicit false

namespace CombinatorJson

inductive Path {α : Type} (Step : Cursor → α → Cursor → Prop) :
    Cursor → List α → Cursor → Prop where
  | here (place : Cursor) : Path Step place [] place
  | step {start middle last : Cursor} {output : α} {outputs : List α}
      (first : Step start output middle) (rest : Path Step middle outputs last) :
      Path Step start (output :: outputs) last

namespace Path

variable {α : Type} {Step : Cursor → α → Cursor → Prop} {start middle last : Cursor} {output : α}
  {outputs outputs' : List α}

theorem append (path : Path Step start outputs middle) (path' : Path Step middle outputs' last) :
    Path Step start (outputs ++ outputs') last := by
  induction path with
  | here => exact path'
  | step first _ ih => exact .step first (ih path')

theorem mono {Step' : Cursor → α → Cursor → Prop}
    (weaker : ∀ start output middle, Step start output middle → Step' start output middle)
    (path : Path Step start outputs last) : Path Step' start outputs last := by
  induction path with
  | here place => exact .here place
  | step first _ ih => exact .step (weaker _ _ _ first) ih

theorem simulate {Step' : Cursor → α → Cursor → Prop} {Place : Cursor → Cursor → Prop}
    (keepsUp : ∀ {start start' output middle}, Place start start' → Step start output middle →
      ∃ middle', Step' start' output middle' ∧ Place middle middle')
    {start' : Cursor} (place : Place start start') (path : Path Step start outputs last) :
    ∃ last', Path Step' start' outputs last' ∧ Place last last' := by
  induction path generalizing start' with
  | here => exact ⟨start', .here start', place⟩
  | step first _ ih =>
    obtain ⟨middle', first', place'⟩ := keepsUp place first
    obtain ⟨last', rest', place''⟩ := ih place'
    exact ⟨last', .step first' rest', place''⟩

theorem exists_of_le_length (path : Path Step start outputs last) {n : Nat}
    (le : n ≤ outputs.length) :
    ∃ outputs' middle, outputs'.length = n ∧ Path Step start outputs' middle := by
  induction path generalizing n with
  | here place => exact ⟨[], place, (Nat.le_zero.mp le).symm, .here place⟩
  | @step start middle last output outputs first rest ih =>
    cases n with
    | zero => exact ⟨[], start, rfl, .here start⟩
    | succ n =>
      obtain ⟨outputs', place, length, path⟩ := ih (Nat.le_of_succ_le_succ le)
      exact ⟨output :: outputs', place, by rw [List.length_cons, length], .step first path⟩

theorem replicate (loops : Step start output start) (n : Nat) :
    Path Step start (List.replicate n output) start := by
  induction n with
  | zero => exact .here start
  | succ n ih => exact .step loops ih

theorem endless (path : Path Step start outputs last) (loops : Step last output last) (n : Nat) :
    ∃ outputs' middle, outputs'.length = n ∧ Path Step start outputs' middle := by
  have longer := path.append (replicate loops n)
  apply longer.exists_of_le_length
  simp only [List.length_append, List.length_replicate]
  omega

def Single (Step : Cursor → α → Cursor → Prop) : Prop :=
  ∀ ⦃start output middle output' middle'⦄, Step start output middle →
    Step start output' middle' → output = output' ∧ middle = middle'

theorem exists_rest (single : Single Step) (path : Path Step start outputs last)
    (ended : ∀ output middle, ¬Step last output middle) (other : Path Step start outputs' middle) :
    ∃ rest, outputs = outputs' ++ rest ∧ Path Step middle rest last := by
  -- As long as the other path has a step left, both take the same one.
  induction other generalizing outputs with
  | here => exact ⟨outputs, rfl, path⟩
  | step first _ ih =>
    cases path with
    | here => exact absurd first (ended _ _)
    | step first' rest' =>
      obtain ⟨rfl, rfl⟩ := single first first'
      obtain ⟨rest, rfl, path⟩ := ih rest'
      exact ⟨rest, rfl, path⟩

end Path

end CombinatorJson
