import CombinatorJson.Proofs.Grammar.Scan
import CombinatorJson.Proofs.Grammar.Viable

set_option autoImplicit false

namespace CombinatorJson

namespace Grammar

namespace Scan

variable {cs outer middle after : List Container} {text rest : List Char} {contexts : List String}
variable {container : Container}

/-- Inside the outer containers the text leaves others open, which have these labels. Only the
innermost of them may have none. -/
def LeavesOpen (cs : List Container) (text : List Char) (contexts : List String)
    (outer : List Container) : Prop :=
  ∃ token opened, run ⟨.word [], cs⟩ text = ⟨token, opened ++ outer⟩ ∧
    opened.reverse.filterMap Container.label? = contexts ∧
    ∀ container ∈ opened.tail, container.label?.isSome = true

theorem leavesOpen_nothing {token : Token} (scanned : run ⟨.word [], cs⟩ text = ⟨token, outer⟩) :
    LeavesOpen cs text [] outer :=
  ⟨token, [], scanned, rfl, nofun⟩

theorem leavesOpen_awaited (awaited : put .value cs = cs) :
    LeavesOpen cs [] [] (put .value cs) :=
  leavesOpen_nothing (by rw [awaited]; rfl)

theorem leavesOpen_innermost {token : Token}
    (scanned : run ⟨.word [], cs⟩ text = ⟨token, container :: outer⟩)
    (labels : [container].filterMap Container.label? = contexts) :
    LeavesOpen cs text contexts outer :=
  ⟨token, [container], scanned, labels, nofun⟩

theorem LeavesOpen.inside {name : String} (inner : LeavesOpen cs text contexts (container :: outer))
    (label : container.label? = some name) : LeavesOpen cs text (name :: contexts) outer := by
  obtain ⟨token, opened, scanned, labels, labelled⟩ := inner
  -- The scan lists the innermost container first, the labels the outermost.
  refine ⟨token, opened ++ [container], ?_, ?_, ?_⟩
  · rw [scanned, List.append_assoc]
    rfl
  · simp [label, labels]
  · cases opened with
    | nil => exact nofun
    | cons innermost opened => simpa [or_imp, forall_and, label] using labelled

theorem Passes.leavesOpen {c : Char} {space : List Char} (first : Passes cs text middle)
    (ends : ∀ word, step ⟨.word word, middle⟩ c = ⟨.word [], after⟩)
    (space_ok : IsWhitespace space) (second : LeavesOpen after rest contexts outer) :
    LeavesOpen cs (text ++ c :: (space ++ rest)) contexts outer := by
  obtain ⟨token, opened, scanned, labels, labelled⟩ := second
  exact ⟨token, opened, by rw [first.run_delimiter ends space_ok, scanned], labels, labelled⟩

end Scan

open Scan

variable {cs outer : List Container} {text : List Char} {contexts : List String}

mutual

theorem ValueText.passes {text : List Char} {value : Json} {cs : List Container}
    (place : awaitsKey cs = false) :
    ValueText text value → Passes cs text (put .valueRead cs)
  | .null => passes_keyword (by decide)
  | .true => passes_keyword (by decide)
  | .false => passes_keyword (by decide)
  | .number number_ok => number_ok.passes
  | .string string_ok => string_ok.passes_value place
  | .emptyArray space_ok => by
    have passes : Passes cs ('[' :: (_ ++ [] ++ [']'])) (put .valueRead cs) :=
      .enclosed (fun _ => rfl) (fun _ _ => rfl) space_ok (.refl _)
    simpa using passes
  | .array space_ok items_ok =>
    .enclosed (fun _ => rfl) (fun _ _ => rfl) space_ok items_ok.passes
  | .emptyObject space_ok => by
    have passes : Passes cs ('{' :: (_ ++ [] ++ ['}'])) (put .valueRead cs) :=
      .enclosed (fun _ => rfl) (fun _ _ => rfl) space_ok (.refl _)
    simpa using passes
  | .object space_ok pairs_ok _ =>
    .enclosed (fun _ => rfl) (fun _ _ => rfl) space_ok (pairs_ok.passes rfl)

theorem ItemText.passes {text : List Char} {value : Json} {cs : List Container}
    (place : awaitsKey cs = false) : ItemText text value → Passes cs text (put .valueRead cs)
  | .mk value_ok space_ok => (value_ok.passes place).spaced space_ok

theorem ItemsText.passes {text : List Char} {items : List Json} {part : Part}
    {outer : List Container} : ItemsText text items →
      Passes (⟨.array, part⟩ :: outer) text (⟨.array, .valueRead⟩ :: outer)
  | .last item_ok => item_ok.passes rfl
  | .more item_ok space_ok rest_ok =>
    (item_ok.passes rfl).delimiter (fun _ => rfl) space_ok rest_ok.passes

theorem PairText.passes {text : List Char} {pair : String × Json} {part : Part}
    {outer : List Container} (place : awaitsKey (⟨.object, part⟩ :: outer) = true) :
    PairText text pair →
      Passes (⟨.object, part⟩ :: outer) text (⟨.object, .valueRead⟩ :: outer)
  | .mk key_ok before_ok after_ok item_ok =>
    ((key_ok.passes_key place).spaced before_ok).delimiter (fun _ => rfl) after_ok
      (item_ok.passes rfl)

theorem PairsText.passes {text : List Char} {pairs : List (String × Json)} {part : Part}
    {outer : List Container} (place : awaitsKey (⟨.object, part⟩ :: outer) = true) :
    PairsText text pairs →
      Passes (⟨.object, part⟩ :: outer) text (⟨.object, .valueRead⟩ :: outer)
  | .last pair_ok => pair_ok.passes place
  | .more pair_ok space_ok rest_ok =>
    (pair_ok.passes place).delimiter (fun _ => rfl) space_ok (rest_ok.passes rfl)

end

theorem DocumentText.passes {value : Json} (document_ok : DocumentText text value) :
    Passes [] text [] := by
  obtain ⟨before_ok, value_ok, after_ok⟩ := document_ok
  have passes : Passes [] _ [] := value_ok.passes rfl
  obtain ⟨word, same⟩ := passes.spaced after_ok
  exact ⟨word, by rw [List.append_assoc, run_append, run_space before_ok, same]⟩

theorem BrokenString.leaves_quoted (string_ok : BrokenString text) (cs : List Container) :
    ∃ escaped, run ⟨.word [], cs⟩ text =
      ⟨.quoted escaped, put (if awaitsKey cs then .key else .value) cs⟩ := by
  cases string_ok with
  | body pieces_ok =>
    refine ⟨false, ?_⟩
    rw [run_cons]
    exact pieces_ok.run_quoted
  | escape pieces_ok =>
    refine ⟨true, ?_⟩
    rw [run_cons, run_append]
    show run (run ⟨.quoted false, _⟩ _) ['\\'] = _
    rw [pieces_ok.run_quoted]
    rfl
  | @unicode body digits pieces pieces_ok digits_ok few =>
    refine ⟨false, ?_⟩
    rw [run_cons, run_append]
    show run (run ⟨.quoted false, _⟩ _) ('\\' :: 'u' :: _) = _
    rw [pieces_ok.run_quoted]
    show run ⟨.quoted false, _⟩ digits = _
    apply run_plain
    intro c known
    obtain ⟨value, listed⟩ := digits_ok c known
    exact not_mark_of_hexDigit listed

theorem run_unfinished (joins : ∀ c ∈ text, c ∉ delimiters) (begun : text ≠ [])
    (unfinished : isFinished text = false) :
    run ⟨.word [], cs⟩ text = ⟨.word text, put .value cs⟩ := by
  rw [run_word joins begun, List.nil_append, afterWord, unfinished]
  rfl

theorem BrokenNumber.last (number_ok : BrokenNumber text) : ∃ front mark, text = front ++ [mark] ∧
    mark ∈ numberMarks := by
  cases number_ok with
  | sign => exact ⟨[], '-', rfl, by decide⟩
  | @point sign whole => exact ⟨sign ++ whole, '.', rfl, by decide⟩
  | @exponent sign whole fraction _ _ _ _ mark _ _ _ mark_ok exponentSign_ok =>
    have marks : ∀ c ∈ ['e', 'E'], c ∈ numberMarks := by simp [numberMarks]
    cases exponentSign_ok with
    | absent => exact ⟨sign ++ whole ++ fraction, mark, rfl, marks mark mark_ok⟩
    | plus => exact ⟨sign ++ whole ++ fraction ++ [mark], '+', by simp, by decide⟩
    | minus => exact ⟨sign ++ whole ++ fraction ++ [mark], '-', by simp, by decide⟩

theorem BrokenNumber.chars (number_ok : BrokenNumber text) :
    ∀ c ∈ text, c.isDigit = true ∨ c ∈ numberMarks := by
  obtain ⟨more, numeral, completed⟩ := number_ok.completes
  exact fun c known => completed.chars c (List.mem_append_left more known)

theorem BrokenNumber.run_eq (number_ok : BrokenNumber text) :
    run ⟨.word [], cs⟩ text = ⟨.word text, put .value cs⟩ := by
  have joins := not_delimiter_of_chars number_ok.chars
  obtain ⟨front, mark, rfl, known⟩ := number_ok.last
  apply run_unfinished joins (by simp)
  -- It ends in no digit; and it is no keyword either, since those have other letters.
  have digitless : ∀ c ∈ numberMarks, c.isDigit = false := by simp [numberMarks]
  have lettered : ∀ keyword ∈ keywords.map String.toList,
      ∃ c ∈ keyword, ¬ (c.isDigit = true ∨ c ∈ numberMarks) := by
    simp [keywords, numberMarks]
  have other : front ++ [mark] ∉ keywords.map String.toList := by
    intro listed
    obtain ⟨c, within, foreign⟩ := lettered _ listed
    exact foreign (number_ok.chars c within)
  rw [isFinished, decide_eq_false other, List.getLast?_concat, Option.any_some,
    digitless mark known]
  rfl

theorem BrokenKeyword.run_eq (keyword_ok : BrokenKeyword text) (begun : text ≠ []) :
    run ⟨.word [], cs⟩ text = ⟨.word text, put .value cs⟩ := by
  obtain @⟨keyword, _, more, c, known, split⟩ := keyword_ok
  have parts : ∀ keyword ∈ keywords, ∀ count < keyword.toList.length,
      isFinished (keyword.toList.take count) = false := by decide
  have joins : ∀ keyword ∈ keywords, ∀ c ∈ keyword.toList, c ∉ delimiters := by
    simp [keywords, delimiters]
  have short : text.length < keyword.toList.length := by simp [split]
  apply run_unfinished ?_ begun
  · simpa [split] using parts keyword known text.length short
  · intro d within
    exact joins keyword known d (split ▸ List.mem_append_left _ within)

mutual

-- Where nothing of the value is there yet, its container must await it already: what comes after a
-- bracket may be missing, what comes after a comma or a colon may not.
theorem BrokenValue.leavesOpen {text : List Char} {contexts : List String} {cs : List Container}
    (place : awaitsKey cs = false) (begun : text ≠ [] ∨ put .value cs = cs) :
    BrokenValue text contexts → LeavesOpen cs text contexts (put .value cs)
  | .start => leavesOpen_awaited (begun.resolve_left (· rfl))
  | .keyword keyword_ok => by
    by_cases none : text = []
    · subst none
      exact leavesOpen_awaited (begun.resolve_left (· rfl))
    · exact leavesOpen_nothing (keyword_ok.run_eq none)
  | .number number_ok => leavesOpen_nothing number_ok.run_eq
  | .string string_ok => by
    obtain ⟨escaped, scanned⟩ := string_ok.leaves_quoted cs
    rw [place] at scanned
    exact leavesOpen_nothing scanned
  | .array space_ok items_ok =>
    (Passes.refl cs).leavesOpen (fun _ => rfl) space_ok items_ok.leavesOpen
  | .object space_ok pairs_ok =>
    (Passes.refl cs).leavesOpen (fun _ => rfl) space_ok pairs_ok.leavesOpen

theorem BrokenItems.leavesOpen {text : List Char} {contexts : List String}
    {outer : List Container} :
    BrokenItems text contexts → LeavesOpen (⟨.array, .vacant⟩ :: outer) text contexts outer
  | .none => leavesOpen_innermost rfl rfl
  | .first value_ok begun => (value_ok.leavesOpen rfl (.inl begun)).inside rfl
  | .ended items_ok => by
    obtain ⟨word, scanned⟩ := items_ok.passes
    exact leavesOpen_innermost scanned rfl
  | .next items_ok space_ok value_ok =>
    items_ok.passes.leavesOpen (fun _ => rfl) space_ok
      ((value_ok.leavesOpen rfl (.inr rfl)).inside rfl)

theorem BrokenPair.leavesOpen {text : List Char} {contexts : List String} {part : Part}
    {outer : List Container} (place : awaitsKey (⟨.object, part⟩ :: outer) = true)
    (begun : text ≠ [] ∨ part = .key) :
    BrokenPair text contexts → LeavesOpen (⟨.object, part⟩ :: outer) text contexts outer
  | .start => by
    cases begun.resolve_left (· rfl)
    exact leavesOpen_innermost rfl rfl
  | .key key_ok => by
    obtain ⟨escaped, scanned⟩ := key_ok.leaves_quoted (⟨.object, part⟩ :: outer)
    rw [place] at scanned
    exact leavesOpen_innermost scanned rfl
  | .colon key_ok before_ok => by
    obtain ⟨word, scanned⟩ := (key_ok.passes_key place).spaced before_ok
    exact leavesOpen_innermost scanned rfl
  | .value key_ok before_ok after_ok value_ok =>
    ((key_ok.passes_key place).spaced before_ok).leavesOpen (fun _ => rfl) after_ok
      ((value_ok.leavesOpen rfl (.inr rfl)).inside rfl)

theorem BrokenPairs.leavesOpen {text : List Char} {contexts : List String}
    {outer : List Container} :
    BrokenPairs text contexts → LeavesOpen (⟨.object, .vacant⟩ :: outer) text contexts outer
  | .none => leavesOpen_innermost rfl rfl
  | .first pair_ok begun => pair_ok.leavesOpen rfl (.inl begun)
  | .ended pairs_ok => by
    have passes : Passes (⟨.object, .vacant⟩ :: outer) _ _ := pairs_ok.passes rfl
    obtain ⟨word, scanned⟩ := passes
    exact leavesOpen_innermost scanned rfl
  | .next pairs_ok space_ok pair_ok =>
    (pairs_ok.passes rfl).leavesOpen (fun _ => rfl) space_ok (pair_ok.leavesOpen rfl (.inr rfl))

end

theorem BrokenDocument.leavesOpen {message : String}
    (document_ok : BrokenDocument text contexts message) : LeavesOpen [] text contexts [] := by
  cases document_ok with
  | value before_ok value_ok =>
    have leaves : LeavesOpen [] _ contexts [] := value_ok.leavesOpen rfl (.inr rfl)
    obtain ⟨token, opened, scanned, kept⟩ := leaves
    exact ⟨token, opened, by rw [run_append, run_space before_ok, scanned], kept⟩
  | trailing document_ok =>
    obtain ⟨word, scanned⟩ := document_ok.passes
    exact leavesOpen_nothing scanned

def openContainers (text : List Char) : List Container :=
  (run ⟨.word [], []⟩ text).containers.reverse

example : (openContainers "\x7b\"a\":[\x7b\x7d,\"]\x7d".toList).filterMap Container.label? =
    [objectValue, arrayElement] := by
  decide

end Grammar

namespace Json

open CombinatorJson.Grammar

/-- Where a text fails, the labels are those of the containers that are open there, outermost
first, and only the innermost one may have none. -/
theorem parse_contexts {text : String} {error : SyntaxError} (failed : parse text = .error error) :
    ∃ front rest, text.toList = front ++ rest ∧ error.offset = utf8Length front ∧
      error.contexts = (openContainers front).filterMap Container.label? ∧
      ∀ container ∈ (openContainers front).dropLast, container.label?.isSome = true := by
  rcases documentReply?_cases text.toList with
    ⟨value, document_ok, -⟩ | ⟨front, rest, contexts, message, split, broken, broke⟩
  · rw [parse_of_documentText document_ok] at failed
    contradiction
  · have same := (parse_of_breaks split broke).symm.trans failed
    cases same
    obtain ⟨token, opened, scanned, labels, labelled⟩ := broken.leavesOpen
    have left : openContainers front = opened.reverse := by
      rw [openContainers, scanned, List.append_nil]
    refine ⟨front, rest, split, ?_, ?_, ?_⟩
    · have ahead : (Cursor.start 0 text.toList).ahead = front ++ rest := split
      have offset := Cursor.offset_advance_length ahead
      simpa [SyntaxError.ofCursor, Cursor.start] using offset
    · rw [left, labels]
      rfl
    · rw [left, List.dropLast_reverse]
      simpa using labelled

theorem parse_contexts_unfinished_word :
    ∃ error, parse "\x7b\"a\":[tru" = .error error ∧
      ∃ front rest, "\x7b\"a\":[tru".toList = front ++ rest ∧
        error.offset = utf8Length front ∧
        error.contexts = (openContainers front).filterMap Container.label? ∧
        ∀ container ∈ (openContainers front).dropLast, container.label?.isSome = true :=
  ⟨_, rfl, parse_contexts rfl⟩

end Json

end CombinatorJson
