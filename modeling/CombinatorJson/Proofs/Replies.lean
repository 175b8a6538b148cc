import CombinatorJson.Runner

set_option autoImplicit false

namespace CombinatorJson

namespace Runner

variable {α β γ : Type} {start current : Cursor}

theorem bind_eq_some_iff {first : Runner α} {next : α → Runner β} {reply : Reply β} :
    bind first next start = some reply ↔
      (∃ remaining output, first start = some (.done remaining output) ∧
        next output remaining = some reply) ∨
      ∃ remaining contexts message, first start = some (.fail remaining contexts message) ∧
        reply = .fail remaining contexts message := by
  cases replied : first start with
  | none => simp [bind, replied]
  | some inner => cases inner <;> simp [bind, replied, and_assoc, @eq_comm _ reply]

theorem orElse_eq_some_iff {first second : Runner α} {reply : Reply α} :
    orElse first second start = some reply ↔
      ∃ inner, first start = some inner ∧
        if inner.failsAt start then second start = some reply else reply = inner := by
  cases replied : first start with
  | none => simp [orElse, replied]
  | some inner =>
    by_cases skipped : inner.failsAt start = true <;>
      simp [orElse, replied, skipped, @eq_comm _ reply]

theorem optional_eq_orElse (parser : Runner α) :
    optional parser = orElse (map some parser) (pure none) := by
  funext start
  cases replied : parser start with
  | none => simp [optional, orElse, map, replied]
  | some inner =>
    cases inner with
    | done remaining output => simp [optional, orElse, map, replied, Reply.map, Reply.failsAt]
    | fail remaining contexts message =>
      by_cases moved : remaining.movedFrom start = true <;>
        simp [optional, orElse, map, pure, replied, Reply.map, Reply.failsAt, moved]

theorem repeatFrom_eq_some_iff {item : Runner β} {absorb : α → β → α} {rounds : List Char}
    {gathered : α} {reply : Reply α} :
    repeatFrom item absorb rounds current gathered = some reply ↔
      (∃ remaining contexts message, item current = some (.fail remaining contexts message) ∧
        remaining.movedFrom current = true ∧ reply = .fail remaining contexts message) ∨
      (∃ inner, item current = some inner ∧ inner.remaining.movedFrom current = false ∧
        reply = .done current gathered) ∨
      ∃ remaining output round rest, item current = some (.done remaining output) ∧
        remaining.movedFrom current = true ∧ rounds = round :: rest ∧
        repeatFrom item absorb rest remaining (absorb gathered output) = some reply := by
  -- Of what a round replies only the last one decides: it fails further on, or stays where it is.
  rw [repeatFrom]
  cases replied : item current with
  | none => simp
  | some inner =>
    by_cases moved : inner.remaining.movedFrom current = true
    · cases inner <;> cases rounds <;> simp_all [Reply.remaining, and_assoc, @eq_comm _ reply]
    · cases inner <;> simp_all [Reply.remaining, @eq_comm _ reply]

theorem countFrom_succ (item : Runner α) (n : Nat) (items : List α) :
    (fun current => countFrom item (n + 1) current items) =
      bind item fun output current => countFrom item n current (output :: items) :=
  rfl

end Runner

end CombinatorJson
