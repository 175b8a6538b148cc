import CombinatorJson.Proofs.Composition
import CombinatorJson.Proofs.Slices

set_option autoImplicit false

namespace CombinatorJson

namespace Reply

variable {α β : Type}

def recognized (origin : Cursor) : Reply α → Reply String
  | .done remaining _ => .done remaining (String.ofList (remaining.consumedSince origin))
  | .fail remaining contexts message => .fail remaining contexts message

theorem recognized_map (origin : Cursor) (f : α → β) (reply : Reply α) :
    (reply.map f).recognized origin = reply.recognized origin := by
  cases reply <;> rfl

theorem recognized_append {start middle : Cursor} {reply : Reply α}
    (reaches : start.Reaches middle) (reaches' : middle.Reaches reply.remaining) :
    reply.recognized start =
      (reply.recognized middle).map fun back =>
        String.ofList (middle.consumedSince start) ++ back := by
  cases reply with
  | fail remaining contexts message => rfl
  | done remaining output =>
    have joined := reaches.consumedSince_append reaches'
    simp only [Reply.remaining] at joined
    simp only [recognized, map, joined, String.ofList_append]

end Reply

namespace Runner

variable {α β : Type}

theorem recognize_eq_map (parser : Runner α) :
    recognize parser = fun start => (parser start).map (Reply.recognized start) := by
  funext start
  cases replied : parser start with
  | none => simp only [recognize, replied, Option.map_none]
  | some reply =>
    cases reply <;> simp only [recognize, replied, Option.map_some, Reply.recognized]

theorem recognize_map (f : α → β) (parser : Runner α) :
    recognize (map f parser) = recognize parser := by
  funext start
  simp only [recognize_eq_map, map, Option.map_map, Function.comp_def, Reply.recognized_map]

theorem recognize_fail_iff {parser : Runner α} {start remaining : Cursor} {contexts : List String}
    {message : String} :
    recognize parser start = some (.fail remaining contexts message) ↔
      parser start = some (.fail remaining contexts message) := by
  cases replied : parser start with
  | none => simp [recognize, replied]
  | some reply => cases reply <;> simp [recognize, replied]

theorem recognize_eq_none_iff {parser : Runner α} {start : Cursor} :
    recognize parser start = none ↔ parser start = none := by
  rw [recognize_eq_map, Option.map_eq_none_iff]

theorem Forward.recognize_done_iff {parser : Runner α} (forward : parser.Forward)
    {start remaining : Cursor} {text : String} :
    Runner.recognize parser start = some (.done remaining text) ↔
      (∃ output, parser start = some (.done remaining output)) ∧
        start.ahead = text.toList ++ remaining.ahead := by
  constructor
  · intro recognized
    rw [recognize_eq_map] at recognized
    obtain ⟨reply, replied, same⟩ := Option.map_eq_some_iff.mp recognized
    cases reply with
    | fail => cases same
    | done remaining output =>
      cases same
      refine ⟨⟨output, replied⟩, ?_⟩
      rw [String.toList_ofList]
      exact (forward start _ replied).ahead_eq
  · rintro ⟨⟨output, replied⟩, split⟩
    -- The text passed is what stands before the rest, and so is the given one.
    have passed := (forward start _ replied).ahead_eq
    have same : remaining.consumedSince start = text.toList :=
      List.append_cancel_right (passed.symm.trans split)
    simp only [Runner.recognize, replied, same, String.ofList_toList]

theorem recognize_zip {first : Runner α} {second : Runner β} (forward : first.Forward)
    (forward' : second.Forward) :
    recognize (zip first second) =
      map (fun (front, back) => front ++ back) (zip (recognize first) (recognize second)) := by
  funext start
  rw [map_zip]
  cases replied : first start with
  | none => simp only [recognize, zip, bind, replied]
  | some reply =>
    cases reply with
    | fail remaining contexts message => simp only [recognize, zip, bind, replied]
    | done middle output =>
      -- Only the second part is left, and its text is put behind that of the first.
      have whole : recognize (zip first second) start =
          (second middle).map (Reply.recognized start) := by
        simp only [recognize_eq_map, zip, replied, Option.map_map, Function.comp_def,
          Reply.recognized_map]
      have parts : recognize first start =
          some (.done middle (String.ofList (middle.consumedSince start))) := by
        simp only [recognize, replied]
      simp only [whole, bind, parts, map, recognize_eq_map second, Option.map_map]
      apply Option.map_congr
      intro reply replied'
      exact Reply.recognized_append (forward start _ replied) (forward' middle reply replied')

theorem Forward.repeatFrom_recognize {item : Runner β} (forward : item.Forward)
    (absorb : α → β → α) {origin current : Cursor} (reached : origin.Reaches current)
    (rounds : List Char) (gathered : α) :
    Runner.repeatFrom (Runner.recognize item) (fun front back => front ++ back) rounds current
        (String.ofList (current.consumedSince origin)) =
      (Runner.repeatFrom item absorb rounds current gathered).map (Reply.recognized origin) := by
  -- A loop that joins the texts of its items holds the text since the place where it began.
  -- Both loops take the same items; only the round that moves on has something to join.
  rw [Runner.repeatFrom, Runner.repeatFrom]
  cases replied : item current with
  | none => simp only [Runner.recognize, replied, Option.map_none]
  | some reply =>
    cases moved : reply.remaining.movedFrom current with
    | false =>
      cases reply <;> simp only [Reply.remaining] at moved <;>
        simp only [Runner.recognize, replied, Reply.remaining, moved, if_false, Option.map_some,
          Reply.recognized, Bool.false_eq_true]
    | true =>
      cases reply with
      | fail remaining contexts message =>
        simp only [Reply.remaining] at moved
        simp only [Runner.recognize, replied, Reply.remaining, moved, if_true, Option.map_some,
          Reply.recognized]
      | done remaining output =>
        simp only [Reply.remaining] at moved
        cases rounds with
        | nil =>
          simp only [Runner.recognize, replied, Reply.remaining, moved, if_true, Option.map_none]
        | cons round rounds =>
          have step : current.Reaches remaining := forward current _ replied
          have joined := reached.consumedSince_append step
          have rest := forward.repeatFrom_recognize absorb (reached.trans step) rounds
            (absorb gathered output)
          simp only [Runner.recognize, replied, Reply.remaining, moved, if_true, ← rest, joined,
            String.ofList_append]
termination_by rounds.length

theorem recognize_many {item : Runner β} (forward : item.Forward) :
    recognize (many item) = map String.join (many (recognize item)) := by
  have joins : (fun start => repeatFrom (recognize item) (fun front back => front ++ back)
      start.ahead start "") = map String.join (many (recognize item)) :=
    repeatFrom_eq_map _ _ ""
  rw [← joins, many, collectFrom_eq_map_reverse, recognize_map, recognize_eq_map]
  funext start
  have loop := forward.repeatFrom_recognize (fun items output => output :: items) (.refl start)
    start.ahead []
  rw [← loop, Cursor.consumedSince_self, String.ofList_nil]

end Runner

namespace Parser

open CombinatorJson.Runner

variable {N : Type → Type} {α β : Type}

/-- A parser is recognized where it succeeds, by the text from the start to the place that it
leaves, and fails as it does itself. Parts in sequence and items of a list are recognized by their
texts, end to end, with the same failures. -/
theorem recognize_parts (rules : {β : Type} → N β → Parser N β) (depth : Nat)
    (first : Parser N α) (second : Parser N β) :
    (∀ start remaining text,
      (recognize first).run rules depth start = some (.done remaining text) ↔
        (∃ output, first.run rules depth start = some (.done remaining output)) ∧
          start.ahead = text.toList ++ remaining.ahead) ∧
      (∀ start remaining contexts message,
        (recognize first).run rules depth start = some (.fail remaining contexts message) ↔
          first.run rules depth start = some (.fail remaining contexts message)) ∧
      (∀ start, (recognize first).run rules depth start = none ↔
        first.run rules depth start = none) ∧
      (recognize (zip first second)).run rules depth =
        (map (fun (front, back) => front ++ back)
          (zip (recognize first) (recognize second))).run rules depth ∧
      (recognize (many first)).run rules depth =
        (map String.join (many (recognize first))).run rules depth := by
  have forward : (first.run rules depth).Forward := run_forward depth first
  have forward' : (second.run rules depth).Forward := run_forward depth second
  obtain ⟨call, meaning⟩ := exists_run_eq_eval rules depth
  simp only [meaning] at forward forward' ⊢
  exact ⟨fun _ _ _ => forward.recognize_done_iff, fun _ _ _ _ => recognize_fail_iff,
    fun _ => recognize_eq_none_iff, recognize_zip forward forward', recognize_many forward⟩

end Parser

end CombinatorJson
