import CombinatorJson.Proofs.Forward
import CombinatorJson.Proofs.Sequences

set_option autoImplicit false

namespace CombinatorJson

namespace Runner

variable {α β γ : Type}

theorem repeatFrom_translated (absorb : α → β → α) (absorb' : γ → β → γ) (f : α → γ)
    (translates : ∀ gathered output, f (absorb gathered output) = absorb' (f gathered) output)
    (item : Runner β) (rounds : List Char) (current : Cursor) (gathered : α) :
    repeatFrom item absorb' rounds current (f gathered) =
      (repeatFrom item absorb rounds current gathered).map (Reply.map f) := by
  -- The two loops take the same items, so only the round that moves on has something to show.
  rw [repeatFrom, repeatFrom]
  cases replied : item current with
  | none => rfl
  | some inner =>
    by_cases moved : inner.remaining.movedFrom current = true
    · cases inner with
      | fail remaining contexts message => simp only [moved, if_true, Option.map_some, Reply.map]
      | done remaining output =>
        cases rounds with
        | nil => simp only [moved, if_true, Option.map_none]
        | cons round rounds =>
          simp only [moved, if_true, ← translates]
          exact repeatFrom_translated absorb absorb' f translates item rounds remaining _
    · cases inner <;> simp only [moved, if_false, Option.map_some, Reply.map, Bool.false_eq_true]
termination_by rounds.length

theorem repeatFrom_map (absorb : α → β → α) (absorb' : γ → β → γ) (f : α → γ)
    (translates : ∀ gathered output, f (absorb gathered output) = absorb' (f gathered) output)
    (item : Runner β) (gathered : α) :
    (fun start => repeatFrom item absorb' start.ahead start (f gathered)) =
      map f fun start => repeatFrom item absorb start.ahead start gathered := by
  funext start
  exact repeatFrom_translated absorb absorb' f translates item start.ahead start gathered

theorem collectFrom_eq_map_reverse (item : Runner α) (items : List α) :
    collectFrom item items = map List.reverse fun start =>
      repeatFrom item (fun items output => output :: items) start.ahead start items :=
  rfl

theorem repeatFrom_eq_map (item : Runner β) (absorb : α → β → α) (first : α) :
    (fun start => repeatFrom item absorb start.ahead start first) =
      map (fun outputs => outputs.foldl absorb first) (many item) := by
  -- The left fold while the loop runs is the left fold over all that it gathers.
  have folds (items : List β) (output : β) :
      (output :: items).reverse.foldl absorb first =
        absorb (items.reverse.foldl absorb first) output := by
    rw [List.reverse_cons, List.foldl_append, List.foldl_cons, List.foldl_nil]
  rw [many, collectFrom_eq_map_reverse, map_map]
  exact repeatFrom_map _ absorb (fun items => items.reverse.foldl absorb first) folds item []

theorem collectFrom_eq_map (item : Runner α) (items : List α) :
    collectFrom item items = map (fun more => items.reverse ++ more) (many item) := by
  have gathers (more : List α) :
      (more.foldl (fun items output => output :: items) items).reverse = items.reverse ++ more := by
    rw [List.foldl_flip_cons_eq_append', List.reverse_append, List.reverse_reverse]
  rw [collectFrom_eq_map_reverse, repeatFrom_eq_map, map_map]
  simp only [gathers]

theorem bind_collectFrom (first item : Runner α) :
    (bind first fun output => collectFrom item [output]) =
      map (fun (output, more) => output :: more) (zip first (many item)) := by
  simp only [map_zip, collectFrom_eq_map, List.reverse_singleton, List.singleton_append]

theorem many1_eq_map (item : Runner α) :
    many1 item = map (fun (first, more) => first :: more) (zip item (many item)) :=
  bind_collectFrom item item

theorem sepBy1_eq_map (item : Runner α) (separator : Runner β) :
    sepBy1 item separator =
      map (fun (first, more) => first :: more) (zip item (many (seqRight separator item))) :=
  bind_collectFrom item (seqRight separator item)

theorem chainl1_eq_map (operand : Runner α) (operator : Runner (α → α → α)) :
    chainl1 operand operator =
      map (fun (first, steps) => steps.foldl (fun left (apply, right) => apply left right) first)
        (zip operand (many (zip operator operand))) := by
  rw [chainl1_eq_bind, map_zip]
  congr 1
  funext first
  exact repeatFrom_eq_map _ _ first

theorem countFrom_eq_map (item : Runner α) (n : Nat) (current : Cursor) (items : List α) :
    countFrom item n current items =
      map (fun more => items.reverse ++ more) (count n item) current := by
  induction n generalizing current items with
  | zero => simp [map, count, countFrom, Reply.map]
  | succ n ih =>
    cases replied : item current with
    | none => simp [map, count, countFrom, replied]
    | some reply =>
      cases reply with
      | fail remaining contexts message => simp [map, count, countFrom, replied, Reply.map]
      | done remaining output =>
        -- On the right this item stands alone before the rest, on the left after all the others.
        have alone := ih remaining [output]
        simp only [countFrom, replied, ih remaining (output :: items)]
        simp only [map, count, countFrom, replied, alone, Option.map_map]
        congr 1
        funext reply
        cases reply <;> simp [Reply.map]

theorem count_zero (item : Runner α) : count 0 item = pure [] :=
  rfl

theorem count_succ (item : Runner α) (n : Nat) :
    count (n + 1) item =
      bind item fun output => map (fun more => output :: more) (count n item) := by
  have step : count (n + 1) item =
      bind item fun output current => countFrom item n current [output] := rfl
  rw [step]
  congr 1
  funext output current
  rw [countFrom_eq_map, List.reverse_singleton]
  rfl

theorem count_add (item : Runner α) (m n : Nat) :
    count (m + n) item =
      map (fun (front, back) => front ++ back) (zip (count m item) (count n item)) := by
  rw [map_zip]
  induction m with
  | zero => simp only [Nat.zero_add, count_zero, pure_bind, List.nil_append, map_id]
  | succ m ih =>
    have more : m + 1 + n = m + n + 1 := by omega
    simp only [more, count_succ, ih, map_bind, map_map, bind_assoc, bind_map, List.cons_append]

end Runner

namespace Parser

variable {N : Type → Type} {α β : Type}

theorem repetitions_composed (rules : {β : Type} → N β → Parser N β) (depth : Nat)
    (item : Parser N α) (separator : Parser N β) (operator : Parser N (α → α → α)) (m n : Nat) :
    (many1 item).run rules depth =
        (map (fun (first, more) => first :: more) (zip item (many item))).run rules depth ∧
      (sepBy1 item separator).run rules depth =
        (map (fun (first, more) => first :: more)
          (zip item (many (seqRight separator item)))).run rules depth ∧
      (sepBy item separator).run rules depth =
        (option [] (sepBy1 item separator)).run rules depth ∧
      (chainl1 item operator).run rules depth =
        (map (fun (first, steps) => steps.foldl (fun left (apply, right) => apply left right) first)
          (zip item (many (zip operator item)))).run rules depth ∧
      (count (m + n) item).run rules depth =
        (map (fun (front, back) => front ++ back) (zip (count m item) (count n item))).run rules
          depth := by
  obtain ⟨call, meaning⟩ := exists_run_eq_eval rules depth
  simp only [meaning]
  exact ⟨Runner.many1_eq_map _, Runner.sepBy1_eq_map _ _, Runner.sepBy_eq_orElse _ _,
    Runner.chainl1_eq_map _ _, Runner.count_add _ m n⟩

end Parser

end CombinatorJson
