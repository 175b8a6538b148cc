import CombinatorJson.Proofs.Entries
import CombinatorJson.Proofs.Grammar.Document

set_option autoImplicit false

namespace CombinatorJson

namespace Cursor

def openings (cursor : Cursor) : Nat :=
  cursor.ahead.countP Json.isOpening

theorem Reaches.openings_le {start later : Cursor} (reaches : start.Reaches later) :
    later.openings ≤ start.openings := by
  obtain ⟨count, rfl⟩ := reaches
  exact (List.drop_sublist count start.ahead).countP_le

def Encloses (outer inner : Cursor) : Prop :=
  ∃ opening, outer.peek? = some opening ∧ Json.isOpening opening = true ∧
    (outer.advance 1).Reaches inner

theorem Encloses.offset_lt {outer inner : Cursor} (encloses : outer.Encloses inner) :
    outer.offset < inner.offset := by
  obtain ⟨opening, head, -, reached⟩ := encloses
  obtain ⟨rest, ahead⟩ := List.head?_eq_some_iff.mp head
  have positive := Char.utf8Size_pos opening
  have onward := reached.offset_le
  simp only [advance, ahead, List.take_succ_cons, List.take_zero, utf8Length_cons,
    utf8Length_nil] at onward
  omega

theorem Encloses.openings_lt {outer inner : Cursor} (encloses : outer.Encloses inner) :
    inner.openings < outer.openings := by
  obtain ⟨opening, head, opens, reached⟩ := encloses
  obtain ⟨rest, ahead⟩ := List.head?_eq_some_iff.mp head
  have fewer := reached.openings_le
  simp only [openings, ahead_advance, ahead, List.drop_one, List.tail_cons] at fewer
  simp only [openings, ahead, List.countP_cons_of_pos opens]
  omega

end Cursor

namespace Runner

theorem satisfy_eq_done {accepts : Char → Bool} {start remaining : Cursor} {c : Char}
    (replied : satisfy accepts start = some (.done remaining c)) :
    start.peek? = some c ∧ accepts c = true ∧ remaining = start.advance 1 := by
  unfold satisfy at replied
  split at replied
  · next head =>
    split at replied
    · next accepted =>
      cases replied
      exact ⟨head, accepted, rfl⟩
    · cases replied
  · cases replied

end Runner

namespace Grammar

open CombinatorJson.Parser CombinatorJson.Runner

section

variable {N : Type → Type} (call : {β : Type} → N β → Runner β)

theorem empty_whitespace : ((whitespace : Parser N Unit).Enters call).Empty :=
  .rounds .none

theorem empty_token (c : Char) : ((token c : Parser N Char).Enters call).Empty :=
  .sequence .none fun _ => empty_whitespace call

theorem empty_string : ((string : Parser N Json).Enters call).Empty := by
  have escape : ((escape : Parser N Fragment).Enters call).Empty :=
    .sequence .none fun _ => .alternative .none (.sequence .none fun _ => .counted .none 4)
  exact .sequence (.sequence .none fun _ => .rounds (.alternative .none escape)) fun _ => .none

theorem empty_digits : ((digits : Parser N (List Char)).Enters call).Empty :=
  .sequence .none fun _ => .rounds .none

theorem empty_number : ((number : Parser N Json).Enters call).Empty := by
  have fraction : ((fraction : Parser N (List Char)).Enters call).Empty :=
    .sequence .none fun _ => empty_digits call
  have exponent : ((exponent : Parser N (List Char)).Enters call).Empty :=
    .sequence (.sequence .none fun _ => .none) fun _ => empty_digits call
  exact .sequence (.sequence (.sequence .none fun _ => empty_digits call) fun _ => fraction)
    fun _ => exponent

theorem empty_bool : ((bool : Parser N Json).Enters call).Empty :=
  .alternative .none .none

theorem empty_null : ((null : Parser N Json).Enters call).Empty :=
  .none

end

section

variable {N : Type → Type} {call : {β : Type} → N β → Runner β} {start remaining : Cursor}
  {entry : Entry N} {α : Type}

theorem reaches_of_token (forward : ∀ {β : Type} (name : N β), (call name).Forward)
    {opening c : Char}
    (replied : (token opening).eval call start = some (.done remaining c)) :
    start.peek? = some opening ∧ (start.advance 1).Reaches remaining := by
  obtain ⟨zipped, replied, same⟩ := Option.map_eq_some_iff.mp replied
  rcases bind_eq_some_iff.mp replied with
    ⟨middle, found, first, spaced⟩ | ⟨_, _, _, _, rfl⟩
  · obtain ⟨head, accepted, rfl⟩ := satisfy_eq_done first
    obtain rfl : found = opening := by simpa using accepted
    have onward := (eval_forward forward whitespace).map (fun other => (found, other))
    have reached := onward _ zipped spaced
    rw [← Reply.remaining_map Prod.fst, same] at reached
    exact ⟨head, reached⟩
  · contradiction

theorem encloses_of_enters_between (forward : ∀ {β : Type} (name : N β), (call name).Forward)
    {opening closing : Char} (opens : Json.isOpening opening = true) {parser : Parser N α}
    (entered : (between (token opening) parser (Parser.char closing)).Enters call start entry) :
    start.Encloses entry.place := by
  -- Brackets enter only what the parser between them enters, behind the opening one.
  rcases entered with (opened | ⟨remaining, _, replied, inside⟩) | ⟨_, _, _, never⟩
  · exact (empty_token call opening _ _ opened).elim
  · obtain ⟨head, reached⟩ := reaches_of_token forward replied
    have onward := enters_onward forward parser _ _ inside
    exact ⟨opening, head, opens, reached.trans onward⟩
  · exact never.elim

theorem encloses_of_enters (forward : ∀ {β : Type} (name : N β), (call name).Forward)
    {parser : Parser N Json} (entered : (valueOver parser).Enters call start entry) :
    start.Encloses entry.place := by
  -- One case for each alternative; of the six only objects and arrays enter anything.
  rcases entered with ((((object | ⟨_, _, _, array⟩) | ⟨_, _, _, string⟩) | ⟨_, _, _, number⟩) |
    ⟨_, _, _, bool⟩) | ⟨_, _, _, null⟩
  · exact encloses_of_enters_between forward rfl object
  · exact encloses_of_enters_between forward rfl array
  · exact (empty_string call _ _ string).elim
  · exact (empty_number call _ _ number).elim
  · exact (empty_bool call _ _ bool).elim
  · exact (empty_null call _ _ null).elim

end

def Deepens {α : Type} (parser : Parser Nonterminal α) : Prop :=
  ∀ (call : {β : Type} → Nonterminal β → Runner β),
    (∀ {β : Type} (name : Nonterminal β), (call name).Forward) →
    ∀ start entry, parser.Enters call start entry → entry.place.openings < start.openings

theorem deepens_value : Deepens value :=
  fun _ forward _ _ entered => (encloses_of_enters forward entered).openings_lt

theorem deepens_document : Deepens document := by
  intro call forward start entry entered
  rcases entered with ((space | ⟨remaining, _, replied, inside⟩) | ⟨_, _, _, space⟩) |
    ⟨_, _, _, never⟩
  · exact (empty_whitespace call _ _ space).elim
  · have reached := eval_forward forward whitespace _ _ replied
    exact Nat.lt_of_lt_of_le (deepens_value call forward _ _ inside) reached.openings_le
  · exact (empty_whitespace call _ _ space).elim
  · exact never.elim

theorem endsLoops_value : value.EndsLoops := by
  trivial

theorem endsLoops_document : document.EndsLoops := by
  trivial

theorem run_returns (depth : Nat) {α : Type} {parser : Parser Nonterminal α}
    (ends : parser.EndsLoops) (deepens : Deepens parser) {start : Cursor}
    (enough : start.openings ≤ depth) : ∃ reply, parser.run rules depth start = some reply := by
  -- Each level of nesting uses up a bracket, so the brackets run out before the depth does.
  induction depth generalizing α parser start with
  | zero =>
    have silent {β : Type} (_ : Nonterminal β) : Forward fun _ => (none : Option (Reply β)) :=
      nofun
    refine eval_returns silent ends fun entry entered => ?_
    have fewer := deepens _ silent start entry entered
    omega
  | succ depth ih =>
    have forward {β : Type} (name : Nonterminal β) : (callAt depth name).Forward :=
      run_forward depth (rules name)
    refine eval_returns forward ends fun entry entered => ?_
    have fewer := deepens _ forward start entry entered
    obtain ⟨⟨⟩, place⟩ := entry
    exact ih endsLoops_value deepens_value (by omega)

/-- A run over the value at `outer` enters a value at `inner`. -/
def Nests (outer inner : Cursor) : Prop :=
  ∃ depth, value.Enters (callAt depth) outer ⟨.value, inner⟩

theorem Nests.encloses {outer inner : Cursor} (nests : Nests outer inner) :
    outer.Encloses inner := by
  obtain ⟨depth, entered⟩ := nests
  exact encloses_of_enters (fun name => run_forward depth (rules name)) entered

/-- A run over the text enters a value at the place, with `depth` values begun and not ended. -/
inductive Entered (text : List Char) : Nat → Cursor → Prop where
  | outermost {place : Cursor}
      (spaced : whitespace.run rules 0 (Cursor.start 0 text) = some (.done place ())) :
      Entered text 1 place
  | nested {depth : Nat} {outer inner : Cursor} (entered : Entered text depth outer)
      (nests : Nests outer inner) : Entered text (depth + 1) inner

theorem Entered.depth_add_openings_le {text : List Char} {depth : Nat} {place : Cursor}
    (entered : Entered text depth place) :
    depth + place.openings ≤ text.countP Json.isOpening + 1 := by
  -- Every value but the outermost has used up a bracket.
  induction entered with
  | @outermost place spaced =>
    have reached := run_forward 0 whitespace _ _ spaced
    have fewer : place.openings ≤ text.countP Json.isOpening := reached.openings_le
    omega
  | nested _ nests ih =>
    have fewer := nests.encloses.openings_lt
    omega

end Grammar

namespace Json

open CombinatorJson.Grammar CombinatorJson.Parser

/-- Every text is answered, with one value begun for each opening bracket and one more at the
most. A value in another one lies further on. -/
theorem documentReply?_returns (text : List Char) :
    (∃ reply, documentReply? text = some reply ∧
      ∀ depth, text.countP isOpening ≤ depth →
        document.run rules depth (Cursor.start 0 text) = some reply) ∧
    (∀ outer inner, Nests outer inner → outer.offset < inner.offset) ∧
    ∀ depth place, Entered text depth place → depth ≤ text.countP isOpening + 1 := by
  refine ⟨?_, fun _ _ nests => nests.encloses.offset_lt, fun _ _ entered => ?_⟩
  · have enough : (Cursor.start 0 text).openings ≤ text.countP isOpening := Nat.le_refl _
    obtain ⟨reply, returned⟩ := run_returns _ endsLoops_document deepens_document enough
    have deeper {depth : Nat} (enough : text.countP isOpening ≤ depth) :
        document.run rules depth (Cursor.start 0 text) = some reply :=
      run_within rules enough document _ reply returned
    exact ⟨reply, deeper (Nat.le_succ _), fun _ => deeper⟩
  · exact Nat.le_of_add_right_le entered.depth_add_openings_le

end Json

end CombinatorJson
