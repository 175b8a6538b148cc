import CombinatorJson.Proofs.Grammar.Number
import CombinatorJson.Proofs.Grammar.String

set_option autoImplicit false

namespace CombinatorJson

namespace Grammar

open CombinatorJson.Parser CombinatorJson.Runner

variable {N : Type → Type} {call : {β : Type} → N β → Runner β}
variable {α : Type} {whole text : List Char} {next : Option Char}

inductive Separated (item : List Char → α → Prop) : List Char → List α → Prop where
  | last {text : List Char} {value : α} (item_ok : item text value) : Separated item text [value]
  | more {text space rest : List Char} {value : α} {values : List α} (item_ok : item text value)
      (space_ok : IsWhitespace space) (rest_ok : Separated item rest values) :
      Separated item (text ++ ',' :: (space ++ rest)) (value :: values)

theorem Separated.snoc {item : List Char → α → Prop} {items : List α} {space last : List Char}
    {value : α} (items_ok : Separated item text items) (space_ok : IsWhitespace space)
    (last_ok : item last value) :
    Separated item (text ++ ',' :: (space ++ last)) (items ++ [value]) := by
  induction items_ok with
  | last item_ok => exact .more item_ok space_ok (.last last_ok)
  | more item_ok space_ok' _ ih => simpa using Separated.more item_ok space_ok' ih

/-- A beginning of such a list: an item that could be missing, a part of the first item, some items
without the bracket after them, or some items and a part of the next one. -/
inductive BrokenSeparated (item : List Char → α → Prop) (broken : List Char → List String → Prop) :
    List Char → List String → Prop where
  | none : BrokenSeparated item broken [] []
  | first {text : List Char} {contexts : List String} (item_ok : broken text contexts)
      (begun : text ≠ []) : BrokenSeparated item broken text contexts
  | ended {text : List Char} {items : List α} (items_ok : Separated item text items) :
      BrokenSeparated item broken text []
  | next {text space rest : List Char} {items : List α} {contexts : List String}
      (items_ok : Separated item text items) (space_ok : IsWhitespace space)
      (item_ok : broken rest contexts) :
      BrokenSeparated item broken (text ++ ',' :: (space ++ rest)) contexts

/-- A list between brackets, which may be empty; the white space after the opening bracket is not
part of an item. -/
def Enclosed (opening closing : Char) (item : List Char → α → Prop) (text : List Char)
    (items : List α) : Prop :=
  ∃ space body, IsWhitespace space ∧ text = opening :: (space ++ body ++ [closing]) ∧
    (body = [] ∧ items = [] ∨ Separated item body items)

def BrokenEnclosed (opening : Char) (item : List Char → α → Prop)
    (broken : List Char → List String → Prop) (text : List Char) (contexts : List String) : Prop :=
  text = [] ∧ contexts = [] ∨ ∃ space body, IsWhitespace space ∧
    text = opening :: (space ++ body) ∧ BrokenSeparated item broken body contexts

theorem answers_char (c : Char) (call : {β : Type} → N β → Runner β) (whole : List Char) :
    ((Parser.char c).eval call).Answers whole (fun text _ _ => text = [c])
      (fun text contexts message => text = [] ∧ contexts = [] ∧ message = "satisfy") := by
  refine answers_satisfy ?_ fun _ => ⟨rfl, rfl, rfl⟩
  intro d _ _ accepted
  obtain rfl : d = c := by simpa using accepted
  rfl

theorem answers_token (c : Char) (call : {β : Type} → N β → Runner β) (whole : List Char) :
    ((token c).eval call).Answers whole
      (fun text _ _ => ∃ space, text = c :: space ∧ IsWhitespace space)
      (fun text contexts message => text = [] ∧ contexts = [] ∧ message = "satisfy") := by
  refine .seqLeft ((answers_char c call whole).mono ?_ fun _ _ _ broken => broken)
  rintro _ rest _ _ rfl
  refine (answers_whitespace call rest).mono ?_ fun _ _ _ never => never.elim
  exact fun space _ _ _ space_ok => ⟨space, rfl, space_ok.1⟩

section

variable {opening closing : Char} {item : List Char → α → Prop}
  {broken : List Char → List String → Prop}

theorem answers_closing {space body : List Char} {items : List α} (space_ok : IsWhitespace space)
    (items_ok : body = [] ∧ items = [] ∨ Separated item body items)
    (call : {β : Type} → N β → Runner β) (after : List Char) :
    ((Parser.char closing).eval call).Answers after
      (fun text _ _ => Enclosed opening closing item (opening :: space ++ body ++ text) items)
      (fun text contexts message =>
        BrokenEnclosed opening item broken (opening :: space ++ body ++ text) contexts ∧
          message = "satisfy") := by
  -- The list is over where no comma or no first item follows; then the bracket is due.
  apply (answers_char closing call after).mono
  · rintro _ _ _ _ rfl
    exact ⟨space, body, space_ok, by simp, items_ok⟩
  · rintro _ _ _ ⟨rfl, rfl, rfl⟩
    refine ⟨.inr ⟨space, body, space_ok, by simp, ?_⟩, rfl⟩
    rcases items_ok with ⟨rfl, -⟩ | items_ok
    · exact .none
    · exact .ended items_ok

theorem answers_enclosed {parser : Parser N α}
    (inner : ∀ front rest, whole = opening :: (front ++ rest) →
      (parser.eval call).Answers rest (fun text _ value => text ≠ [] ∧ item text value)
        (fun text contexts message => broken text contexts ∧ message = "satisfy")) :
    ((between (token opening) (sepBy parser (token ',')) (Parser.char closing)).eval call).Answers
      whole (fun text _ items => Enclosed opening closing item text items)
      (fun text contexts message =>
        BrokenEnclosed opening item broken text contexts ∧ message = "satisfy") := by
  refine .seqLeft (.seqRight ((answers_token opening call whole).mono ?_
    fun _ _ _ missing => ⟨.inl ⟨missing.1, missing.2.1⟩, missing.2.2⟩))
  rintro _ rest _ rfl ⟨space, rfl, space_ok⟩
  refine .sepBy ((inner space rest rfl).mono ?_ ?_)
  · rintro first rest value rfl ⟨begun, item_ok⟩
    refine ⟨begun, answers_collectFrom (fun text items => Separated item (first ++ text) items)
      (by simpa using .last item_ok) ?_⟩
    intro text rest' items split items_ok
    refine .seqRight ((answers_token ',' call rest').mono ?_ ?_)
    · rintro _ rest'' _ rfl ⟨space', rfl, space'_ok⟩
      refine (inner (space ++ first ++ text ++ ',' :: space') rest'' (by simp [split])).mono ?_ ?_
      · rintro last _ _ _ ⟨-, last_ok⟩
        exact ⟨by simp, by simpa using items_ok.snoc space'_ok last_ok⟩
      · rintro last contexts _ ⟨broken_ok, rfl⟩
        -- After a comma an item is due, so its break is one of the list.
        refine ⟨fun same => absurd same (by simp), fun _ => ⟨.inr ⟨space, _, space_ok, ?_,
          .next items_ok space'_ok broken_ok⟩, rfl⟩⟩
        simp
    · rintro _ _ _ ⟨rfl, rfl, rfl⟩
      refine ⟨fun _ => ?_, fun moved => absurd rfl moved⟩
      simpa using answers_closing space_ok (.inr items_ok) call rest'
  · rintro first contexts _ ⟨broken_ok, rfl⟩
    refine ⟨fun _ => ?_, fun begun => ?_⟩
    · simpa using answers_closing space_ok (.inl ⟨rfl, rfl⟩) call rest
    · exact ⟨.inr ⟨space, first, space_ok, by simp, .first broken_ok begun⟩, rfl⟩

end

end Grammar

end CombinatorJson
