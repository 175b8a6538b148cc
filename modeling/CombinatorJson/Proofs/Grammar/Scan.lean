import CombinatorJson.Proofs.Grammar.Derivation

/-!
The scan is no parser: it does not check what it passes. For every open container it keeps what is
begun there or must come next.
-/

set_option autoImplicit false

namespace CombinatorJson

namespace Grammar

inductive Kind where
  | array
  | object
deriving DecidableEq

inductive Part where
  -- Just opened: it may be closed as well.
  | vacant
  -- A key is begun, or must come after a comma.
  | key
  | keyRead
  -- A value is begun and not finished, or must come after a comma or a colon.
  | value
  | valueRead
deriving DecidableEq

structure Container where
  kind : Kind
  part : Part
deriving DecidableEq

def Container.label? : Container → Option String
  | ⟨.array, .value⟩ => some arrayElement
  | ⟨.object, .key⟩ => some objectKey
  | ⟨.object, .value⟩ => some objectValue
  | _ => none

inductive Token where
  -- The characters of a number or a keyword so far; none between two tokens.
  | word (text : List Char)
  | quoted (escaped : Bool)

/-- The innermost container comes first. -/
structure Scan where
  token : Token
  containers : List Container

namespace Scan

variable {cs outer : List Container} {part : Part}

def put (part : Part) : List Container → List Container
  | [] => []
  | container :: outer => ⟨container.kind, part⟩ :: outer

def awaitsKey : List Container → Bool
  | ⟨.object, .vacant⟩ :: _ => true
  | ⟨.object, .key⟩ :: _ => true
  | _ => false

def afterComma : List Container → List Container
  | ⟨.object, _⟩ :: outer => ⟨.object, .key⟩ :: outer
  | cs => put .value cs

def afterString : List Container → List Container
  | ⟨kind, .key⟩ :: outer => ⟨kind, .keyRead⟩ :: outer
  | cs => put .valueRead cs

def keywords : List String :=
  ["null", "true", "false"]

/-- A number is finished after any digit, although it may go on. -/
def isFinished (word : List Char) : Bool :=
  word ∈ keywords.map String.toList || word.getLast?.any Char.isDigit

def afterWord (word : List Char) (cs : List Container) : List Container :=
  put (if isFinished word then .valueRead else .value) cs

def step : Scan → Char → Scan
  | ⟨.quoted true, cs⟩, _ => ⟨.quoted false, cs⟩
  | ⟨.quoted false, cs⟩, c =>
    match c with
    | '\\' => ⟨.quoted true, cs⟩
    | '"' => ⟨.word [], afterString cs⟩
    | _ => ⟨.quoted false, cs⟩
  | ⟨.word text, cs⟩, c =>
    match c with
    | '"' => ⟨.quoted false, put (if awaitsKey cs then .key else .value) cs⟩
    | '[' => ⟨.word [], ⟨.array, .vacant⟩ :: put .value cs⟩
    | '{' => ⟨.word [], ⟨.object, .vacant⟩ :: put .value cs⟩
    | ']' | '}' => ⟨.word [], put .valueRead cs.tail⟩
    | ',' => ⟨.word [], afterComma cs⟩
    | ':' => ⟨.word [], put .value cs⟩
    | ' ' | '\t' | '\n' | '\r' => ⟨.word [], cs⟩
    | c => ⟨.word (text ++ [c]), afterWord (text ++ [c]) cs⟩

def run (scan : Scan) (text : List Char) : Scan :=
  text.foldl step scan

@[simp] theorem run_nil (scan : Scan) : scan.run [] = scan :=
  rfl

@[simp] theorem run_cons (scan : Scan) (c : Char) (rest : List Char) :
    scan.run (c :: rest) = (scan.step c).run rest :=
  rfl

@[simp] theorem run_append (scan : Scan) (front rest : List Char) :
    scan.run (front ++ rest) = (scan.run front).run rest :=
  List.foldl_append

@[simp] theorem put_put (part part' : Part) (cs : List Container) :
    put part (put part' cs) = put part cs := by
  cases cs <;> rfl

@[simp] theorem afterWord_afterWord (word word' : List Char) (cs : List Container) :
    afterWord word (afterWord word' cs) = afterWord word cs :=
  put_put ..

def delimiters : List Char :=
  ['"', '[', '{', ']', '}', ',', ':', ' ', '\t', '\n', '\r']

theorem step_word {word : List Char} {c : Char} (joins : c ∉ delimiters) :
    step ⟨.word word, cs⟩ c = ⟨.word (word ++ [c]), afterWord (word ++ [c]) cs⟩ := by
  unfold step
  split <;> simp_all [delimiters]

theorem run_word {word text : List Char} (joins : ∀ c ∈ text, c ∉ delimiters) (begun : text ≠ []) :
    run ⟨.word word, cs⟩ text = ⟨.word (word ++ text), afterWord (word ++ text) cs⟩ := by
  induction text generalizing word cs with
  | nil => exact absurd rfl begun
  | cons c rest ih =>
    have first : c ∉ delimiters := joins c List.mem_cons_self
    rw [run_cons, step_word first]
    by_cases last : rest = []
    · subst last
      rfl
    · rw [ih (fun d known => joins d (List.mem_cons_of_mem c known)) last, afterWord_afterWord,
        List.append_assoc]
      rfl

theorem step_space {c : Char} (space : c ∈ [' ', '\t', '\n', '\r']) (word : List Char) :
    step ⟨.word word, cs⟩ c = ⟨.word [], cs⟩ := by
  simp only [List.mem_cons, List.not_mem_nil, or_false] at space
  obtain rfl | rfl | rfl | rfl := space <;> rfl

theorem run_space {space : List Char} (space_ok : IsWhitespace space) :
    run ⟨.word [], cs⟩ space = ⟨.word [], cs⟩ := by
  induction space with
  | nil => rfl
  | cons c rest ih =>
    rw [run_cons, step_space (space_ok c List.mem_cons_self)]
    exact ih fun d known => space_ok d (List.mem_cons_of_mem c known)

/-- What a complete text makes of the containers around it, when it begins between two tokens. -/
def Passes (cs : List Container) (text : List Char) (cs' : List Container) : Prop :=
  ∃ word, run ⟨.word [], cs⟩ text = ⟨.word word, cs'⟩

theorem Passes.refl (cs : List Container) : Passes cs [] cs :=
  ⟨[], rfl⟩

variable {middle after cs' : List Container} {text rest : List Char} {c : Char}

theorem Passes.spaced {space : List Char} (passes : Passes cs text cs')
    (space_ok : IsWhitespace space) : Passes cs (text ++ space) cs' := by
  obtain ⟨word, same⟩ := passes
  cases space with
  | nil => exact ⟨word, by rw [List.append_nil, same]⟩
  | cons c rest =>
    refine ⟨[], ?_⟩
    rw [run_append, same, run_cons, step_space (space_ok c List.mem_cons_self)]
    exact run_space fun d known => space_ok d (List.mem_cons_of_mem c known)

theorem Passes.run_delimiter {space : List Char} (first : Passes cs text middle)
    (ends : ∀ word, step ⟨.word word, middle⟩ c = ⟨.word [], after⟩)
    (space_ok : IsWhitespace space) :
    run ⟨.word [], cs⟩ (text ++ c :: (space ++ rest)) = run ⟨.word [], after⟩ rest := by
  obtain ⟨word, same⟩ := first
  rw [run_append, same, run_cons, ends, run_append, run_space space_ok]

theorem Passes.delimiter {space : List Char} (first : Passes cs text middle)
    (ends : ∀ word, step ⟨.word word, middle⟩ c = ⟨.word [], after⟩)
    (space_ok : IsWhitespace space) (second : Passes after rest cs') :
    Passes cs (text ++ c :: (space ++ rest)) cs' := by
  obtain ⟨word, same⟩ := second
  exact ⟨word, by rw [first.run_delimiter ends space_ok, same]⟩

theorem Passes.enclosed {kind : Kind} {opening closing : Char} {space : List Char}
    (opens : ∀ word, step ⟨.word word, cs⟩ opening = ⟨.word [], ⟨kind, .vacant⟩ :: put .value cs⟩)
    (closes : ∀ word outer, step ⟨.word word, ⟨kind, part⟩ :: outer⟩ closing =
      ⟨.word [], put .valueRead outer⟩)
    (space_ok : IsWhitespace space)
    (inner : Passes (⟨kind, .vacant⟩ :: put .value cs) text (⟨kind, part⟩ :: put .value cs)) :
    Passes cs (opening :: (space ++ text ++ [closing])) (put .valueRead cs) := by
  have begun := (Passes.refl cs).delimiter opens space_ok inner
  obtain ⟨word, same⟩ := begun
  refine ⟨[], ?_⟩
  rw [← List.cons_append, run_append]
  rw [List.nil_append] at same
  rw [same, run_cons, closes, put_put, run_nil]

theorem passes_word {word : List Char} (joins : ∀ c ∈ word, c ∉ delimiters) (begun : word ≠ [])
    (finished : isFinished word = true) : Passes cs word (put .valueRead cs) :=
  ⟨word, by rw [run_word joins begun, List.nil_append, afterWord, if_pos finished]⟩

theorem run_plain (plain : ∀ c ∈ text, c ≠ '"' ∧ c ≠ '\\') :
    run ⟨.quoted false, cs⟩ text = ⟨.quoted false, cs⟩ := by
  induction text with
  | nil => rfl
  | cons c rest ih =>
    have first : step ⟨.quoted false, cs⟩ c = ⟨.quoted false, cs⟩ := by
      unfold step
      split <;> simp_all
    rw [run_cons, first]
    exact ih fun d known => plain d (List.mem_cons_of_mem c known)

theorem afterString_value (place : awaitsKey cs = false) :
    afterString (put (if awaitsKey cs then .key else .value) cs) = put .valueRead cs := by
  rw [place]
  cases cs <;> rfl

theorem afterString_key (place : awaitsKey (⟨.object, part⟩ :: outer) = true) :
    afterString (put (if awaitsKey (⟨.object, part⟩ :: outer) then .key else .value)
      (⟨.object, part⟩ :: outer)) = ⟨.object, .keyRead⟩ :: outer := by
  rw [place]
  rfl

end Scan

open Scan

variable {cs outer : List Container} {part : Part} {text : List Char}

theorem not_mark_of_hexDigit {c : Char} {value : Nat} (digit : (c, value) ∈ hexDigits) :
    c ≠ '"' ∧ c ≠ '\\' := by
  have plain : ∀ pair ∈ hexDigits, pair.1 ≠ '"' ∧ pair.1 ≠ '\\' := by decide
  exact plain _ digit

theorem PieceText.run_quoted {piece : Fragment} (piece_ok : PieceText text piece) :
    run ⟨.quoted false, cs⟩ text = ⟨.quoted false, cs⟩ := by
  cases piece_ok with
  | plain no_quote no_backslash =>
    apply run_plain
    simpa using ⟨no_quote, no_backslash⟩
  | simple escape => rfl
  | @unicode a b c d _ _ _ _ first second third fourth =>
    show run ⟨.quoted false, cs⟩ [a, b, c, d] = _
    apply run_plain
    simpa using ⟨not_mark_of_hexDigit first, not_mark_of_hexDigit second,
      not_mark_of_hexDigit third, not_mark_of_hexDigit fourth⟩

theorem PiecesText.run_quoted {pieces : List Fragment} (pieces_ok : PiecesText text pieces) :
    run ⟨.quoted false, cs⟩ text = ⟨.quoted false, cs⟩ := by
  induction pieces_ok with
  | nil => rfl
  | cons first _ ih => rw [run_append, first.run_quoted, ih]

theorem StringText.run_eq {value : String} (string_ok : StringText text value) :
    run ⟨.word [], cs⟩ text =
      ⟨.word [], afterString (put (if awaitsKey cs then .key else .value) cs)⟩ := by
  obtain ⟨pieces_ok⟩ := string_ok
  rw [run_cons, run_append]
  show run (run ⟨.quoted false, _⟩ _) ['"'] = _
  rw [pieces_ok.run_quoted]
  rfl

theorem StringText.passes_value {value : String} (string_ok : StringText text value)
    (place : awaitsKey cs = false) : Passes cs text (put .valueRead cs) :=
  ⟨[], by rw [string_ok.run_eq, afterString_value place]⟩

theorem StringText.passes_key {key : String} (key_ok : StringText text key)
    (place : awaitsKey (⟨.object, part⟩ :: outer) = true) :
    Passes (⟨.object, part⟩ :: outer) text (⟨.object, .keyRead⟩ :: outer) :=
  ⟨[], by rw [key_ok.run_eq, afterString_key place]⟩

theorem not_delimiter_of_isDigit {c : Char} (digit : c.isDigit = true) : c ∉ delimiters := by
  have others : ∀ d ∈ delimiters, d.isDigit = false := by simp [delimiters]
  intro listed
  rw [others c listed] at digit
  contradiction

def numberMarks : List Char :=
  ['-', '+', '.', 'e', 'E']

theorem SignText.marks {negative : Bool} (sign_ok : SignText text negative) :
    ∀ c ∈ text, c ∈ numberMarks := by
  cases sign_ok <;> simp [numberMarks]

theorem ExponentSignText.marks {down : Bool} (sign_ok : ExponentSignText text down) :
    ∀ c ∈ text, c ∈ numberMarks := by
  cases sign_ok <;> simp [numberMarks]

theorem NumberText.chars {numeral : Numeral} (number_ok : NumberText text numeral) :
    ∀ c ∈ text, c.isDigit = true ∨ c ∈ numberMarks := by
  obtain ⟨sign_ok, whole_ok, fraction_ok, exponent_ok⟩ := number_ok
  simp only [List.forall_mem_append]
  refine ⟨⟨⟨?_, ?_⟩, ?_⟩, ?_⟩
  · exact fun c known => .inr (sign_ok.marks c known)
  · exact fun c known => .inl (whole_ok.2 c known)
  · cases fraction_ok with
    | absent => exact nofun
    | present digits_ok =>
      rw [List.forall_mem_cons]
      exact ⟨.inr (by decide), fun c known => .inl (digits_ok.2 c known)⟩
  · cases exponent_ok with
    | absent => exact nofun
    | present mark_ok sign_ok digits_ok =>
      have mark : ∀ c ∈ ['e', 'E'], c ∈ numberMarks := by simp [numberMarks]
      rw [List.forall_mem_cons, List.forall_mem_append]
      exact ⟨.inr (mark _ mark_ok), fun c known => .inr (sign_ok.marks c known),
        fun c known => .inl (digits_ok.2 c known)⟩

theorem not_delimiter_of_chars (chars : ∀ c ∈ text, c.isDigit = true ∨ c ∈ numberMarks) :
    ∀ c ∈ text, c ∉ delimiters := by
  have marks : ∀ d ∈ numberMarks, d ∉ delimiters := by simp [numberMarks, delimiters]
  intro c known
  exact (chars c known).elim not_delimiter_of_isDigit (marks c)

theorem Digits.finishes (digits_ok : Digits text) (front : List Char) :
    isFinished (front ++ text) = true := by
  have last := digits_ok.2 _ (List.getLast_mem digits_ok.1)
  simp [isFinished, List.getLast?_append, List.getLast?_eq_some_getLast digits_ok.1, last]

theorem NumberText.finished {numeral : Numeral} (number_ok : NumberText text numeral) :
    isFinished text = true := by
  obtain @⟨sign, whole, fraction, _, exponent, _, _, sign_ok, whole_ok, fraction_ok, exponent_ok⟩ :=
    number_ok
  cases exponent_ok with
  | @present mark sign' digits _ _ _ digits_ok =>
    simpa using digits_ok.finishes (sign ++ whole ++ fraction ++ mark :: sign')
  | absent =>
    cases fraction_ok with
    | present digits_ok => simpa using digits_ok.finishes (sign ++ whole ++ ['.'])
    | absent => simpa using whole_ok.finishes sign

theorem NumberText.passes {numeral : Numeral} (number_ok : NumberText text numeral) :
    Passes cs text (put .valueRead cs) := by
  have begun : text ≠ [] := by
    intro none
    have finished := number_ok.finished
    rw [none] at finished
    contradiction
  exact passes_word (not_delimiter_of_chars number_ok.chars) begun number_ok.finished

theorem passes_keyword {keyword : String} (known : keyword ∈ keywords) :
    Passes cs keyword.toList (put .valueRead cs) := by
  have words : ∀ keyword ∈ keywords, (∀ c ∈ keyword.toList, c ∉ delimiters) ∧
      keyword.toList ≠ [] ∧ isFinished keyword.toList = true := by
    simp [keywords, delimiters, isFinished]
  obtain ⟨joins, begun, finished⟩ := words keyword known
  exact passes_word joins begun finished

end Grammar

end CombinatorJson
