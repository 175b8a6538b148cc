import CombinatorJson.Parser
import CombinatorJson.Proofs.Prediction
import CombinatorJson.Proofs.Replies

set_option autoImplicit false

namespace CombinatorJson

namespace Runner

variable {α β γ : Type}

theorem bind_pure (parser : Runner α) : bind parser pure = parser := by
  funext start
  cases replied : parser start with
  | none => simp only [bind, replied]
  | some reply => cases reply <;> simp only [bind, pure, replied]

theorem bind_assoc (first : Runner α) (next : α → Runner β) (last : β → Runner γ) :
    bind (bind first next) last = bind first fun output => bind (next output) last := by
  funext start
  cases replied : first start with
  | none => simp only [bind, replied]
  | some reply => cases reply <;> simp only [bind, replied]

theorem pure_bind (value : α) (next : α → Runner β) : bind (pure value) next = next value :=
  rfl

theorem map_eq_bind (f : α → β) (parser : Runner α) :
    map f parser = bind parser fun output => pure (f output) := by
  funext start
  cases replied : parser start with
  | none => simp only [map, bind, replied, Option.map_none]
  | some reply =>
    cases reply <;> simp only [map, bind, pure, replied, Option.map_some, Reply.map]

theorem map_bind (f : β → γ) (first : Runner α) (next : α → Runner β) :
    map f (bind first next) = bind first fun output => map f (next output) := by
  rw [map_eq_bind, bind_assoc]
  simp only [map_eq_bind f]

theorem bind_map (f : α → β) (first : Runner α) (next : β → Runner γ) :
    bind (map f first) next = bind first fun output => next (f output) := by
  rw [map_eq_bind, bind_assoc]
  rfl

theorem map_map (f : β → γ) (g : α → β) (parser : Runner α) :
    map f (map g parser) = map (fun output => f (g output)) parser := by
  rw [map_eq_bind f, bind_map, map_eq_bind]

theorem map_id (parser : Runner α) : map (fun output => output) parser = parser := by
  rw [map_eq_bind]
  exact bind_pure parser

theorem map_zip (f : α × β → γ) (first : Runner α) (second : Runner β) :
    map f (zip first second) =
      bind first fun output => map (fun other => f (output, other)) second := by
  simp only [zip_eq_bind, map_bind, map_map]

theorem zip_eq_bind_bind (first : Runner α) (second : Runner β) :
    zip first second =
      bind first fun output => bind second fun other => pure (output, other) := by
  simp only [zip_eq_bind, map_eq_bind]

theorem zip_assoc (first : Runner α) (second : Runner β) (third : Runner γ) :
    zip (zip first second) third =
      map (fun (left, middle, right) => ((left, middle), right))
        (zip first (zip second third)) := by
  simp only [map_zip]
  simp only [zip_eq_bind, bind_assoc, bind_map]

end Runner

namespace Parser

variable {N : Type → Type} (call : {β : Type} → N β → Runner β) {α β γ δ : Type}

/-- Whatever the rules do, parsers in sequence make a monad, and each other way to combine them
replies like its composed form: with the same success, with the same failure, or with none. -/
theorem sequencing_laws (first : Parser N α) (second : Parser N β) (third : Parser N γ)
    (value : α) (f : α → δ) (next : α → Parser N β) (last : β → Parser N γ) :
    (bind (pure value) next).eval call = (next value).eval call ∧
      (bind first pure).eval call = first.eval call ∧
      (bind (bind first next) last).eval call =
        (bind first fun output => bind (next output) last).eval call ∧
      (map f first).eval call = (bind first fun output => pure (f output)).eval call ∧
      (seqRight first second).eval call = (bind first fun _ => second).eval call ∧
      (zip first second).eval call =
        (bind first fun output => bind second fun other => pure (output, other)).eval call ∧
      (seqLeft first second).eval call = (map Prod.fst (zip first second)).eval call ∧
      (between first second third).eval call =
        (seqLeft (seqRight first second) third).eval call ∧
      (zip (zip first second) third).eval call =
        (map (fun (left, middle, right) => ((left, middle), right))
          (zip first (zip second third))).eval call ∧
      (optional first).eval call = (option none (map some first)).eval call :=
  ⟨Runner.pure_bind _ _, Runner.bind_pure _, Runner.bind_assoc _ _ _, Runner.map_eq_bind _ _,
    Runner.seqRight_eq_bind _ _, Runner.zip_eq_bind_bind _ _, rfl, rfl, Runner.zip_assoc _ _ _,
    Runner.optional_eq_orElse _⟩

end Parser

end CombinatorJson
