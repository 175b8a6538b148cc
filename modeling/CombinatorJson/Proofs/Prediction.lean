import CombinatorJson.Proofs.Advance
import CombinatorJson.Runner

set_option autoImplicit false

namespace CombinatorJson

namespace Runner

variable {α β γ : Type}

/-- Before `text` and a rest that begins with `next`, the parser takes exactly `text`. -/
def Reads (parser : Runner α) (text : List Char) (next : Option Char) (output : α) : Prop :=
  ∀ (start : Cursor) (rest : List Char), start.ahead = text ++ rest → rest.head? = next →
    parser start = some (.done (start.advance text.length) output)

/-- Before `text` and a rest that begins with `next`, the parser fails at the end of `text`. -/
def Breaks (parser : Runner α) (text : List Char) (next : Option Char) (contexts : List String)
    (message : String) : Prop :=
  ∀ (start : Cursor) (rest : List Char), start.ahead = text ++ rest → rest.head? = next →
    parser start = some (.fail (start.advance text.length) contexts message)

theorem reads_satisfy {accepts : Char → Bool} {c : Char} (accepted : accepts c = true)
    (next : Option Char) : (satisfy accepts).Reads [c] next c := by
  intro start rest ahead _
  simp [satisfy, Cursor.peek?, ahead, accepted]

theorem breaks_satisfy {accepts : Char → Bool} {next : Option Char}
    (rejected : ∀ c, next = some c → accepts c = false) :
    (satisfy accepts).Breaks [] next [] "satisfy" := by
  intro start rest ahead head
  cases rest with
  | nil => simp [satisfy, Cursor.peek?, ahead, Reply.failAt]
  | cons c rest =>
    have refused := rejected c (by simpa using head.symm)
    simp [satisfy, Cursor.peek?, ahead, Reply.failAt, refused]

theorem reads_pure (output : α) (next : Option Char) : (pure output).Reads [] next output := by
  intro start rest _ _
  simp [pure]

theorem reads_endOfInput : endOfInput.Reads [] none () := by
  intro start rest ahead head
  have ended : rest = [] := List.head?_eq_none_iff.mp head
  simp [endOfInput, Cursor.atEnd, ahead, ended]

theorem breaks_endOfInput (c : Char) : endOfInput.Breaks [] (some c) [] "endOfInput" := by
  intro start rest ahead head
  have more : rest ≠ [] := by
    rintro rfl
    simp at head
  simp [endOfInput, Cursor.atEnd, ahead, more, Reply.failAt]

theorem literalFrom_append (output : String) (matched more : List Char) {start : Cursor}
    {rest : List Char} (ahead : start.ahead = matched ++ rest) :
    literalFrom output (matched ++ more) start =
      literalFrom output more (start.advance matched.length) := by
  -- One character is matched at a time; what is left of the literal is tried further on.
  induction matched generalizing start with
  | nil => simp
  | cons c matched ih =>
    have step : (start.advance 1).ahead = matched ++ rest := by simp [ahead]
    simp only [List.cons_append, literalFrom, Cursor.peek?, ahead, List.head?_cons, if_true, ih step,
      Cursor.advance_advance, List.length_cons, Nat.add_comm 1]

theorem reads_literal (expected : String) (next : Option Char) :
    (literal expected).Reads expected.toList next expected := by
  intro start rest ahead _
  have read := literalFrom_append expected expected.toList [] ahead
  simpa [literal, literalFrom] using read

theorem breaks_literal {expected : String} {matched more : List Char} {c : Char}
    {next : Option Char} (split : expected.toList = matched ++ c :: more) (differs : next ≠ some c) :
    (literal expected).Breaks matched next [] "satisfy" := by
  intro start rest ahead head
  have stopped : (start.advance matched.length).peek? ≠ some c := by
    rw [Cursor.peek?, Cursor.ahead_advance_length ahead, head]
    exact differs
  simp only [literal, split, literalFrom_append expected matched (c :: more) ahead, literalFrom,
    stopped, if_false, Reply.failAt]

section

variable {text more : List Char} {next : Option Char} {output : α} {contexts : List String}
  {message : String}

theorem Reads.before {parser : Runner α} (reads : parser.Reads text (more.head?.or next) output)
    {start : Cursor} {rest : List Char} (ahead : start.ahead = text ++ more ++ rest)
    (head : rest.head? = next) :
    parser start = some (.done (start.advance text.length) output) := by
  apply reads start (more ++ rest)
  · rw [ahead, List.append_assoc]
  · rw [List.head?_append, head]

theorem Reads.map {parser : Runner α} (f : α → β) (reads : parser.Reads text next output) :
    (Runner.map f parser).Reads text next (f output) := by
  intro start rest ahead head
  simp [Runner.map, reads start rest ahead head, Reply.map]

theorem Breaks.map {parser : Runner α} (f : α → β)
    (breaks : parser.Breaks text next contexts message) :
    (Runner.map f parser).Breaks text next contexts message := by
  intro start rest ahead head
  simp [Runner.map, breaks start rest ahead head, Reply.map]

theorem Reads.tryMap {parser : Runner α} {f : α → Except String β} {result : β}
    (reads : parser.Reads text next output) (accepted : f output = .ok result) :
    (Runner.tryMap f parser).Reads text next result := by
  intro start rest ahead head
  simp [Runner.tryMap, reads start rest ahead head, accepted]

theorem Breaks.tryMap {parser : Runner α} (f : α → Except String β)
    (breaks : parser.Breaks text next contexts message) :
    (Runner.tryMap f parser).Breaks text next contexts message := by
  intro start rest ahead head
  simp [Runner.tryMap, breaks start rest ahead head]

theorem Reads.label {parser : Runner α} (name : String) (reads : parser.Reads text next output) :
    (Runner.label name parser).Reads text next output := by
  intro start rest ahead head
  simp [Runner.label, reads start rest ahead head]

theorem Breaks.label {parser : Runner α} (name : String)
    (breaks : parser.Breaks text next contexts message) :
    (Runner.label name parser).Breaks text next (name :: contexts) message := by
  intro start rest ahead head
  simp [Runner.label, breaks start rest ahead head]

theorem Reads.recognize {parser : Runner α} (reads : parser.Reads text next output) :
    (Runner.recognize parser).Reads text next (String.ofList text) := by
  intro start rest ahead head
  simp [Runner.recognize, reads start rest ahead head,
    Cursor.consumedSince_advance_length ahead]

theorem Breaks.recognize {parser : Runner α} (breaks : parser.Breaks text next contexts message) :
    (Runner.recognize parser).Breaks text next contexts message := by
  intro start rest ahead head
  simp [Runner.recognize, breaks start rest ahead head]

theorem Reads.optional {parser : Runner α} (reads : parser.Reads text next output) :
    (Runner.optional parser).Reads text next (some output) := by
  intro start rest ahead head
  simp [Runner.optional, reads start rest ahead head]

theorem Reads.optional_none {parser : Runner α} (breaks : parser.Breaks [] next contexts message) :
    (Runner.optional parser).Reads [] next none := by
  intro start rest ahead head
  simp [Runner.optional, breaks start rest ahead head, Cursor.movedFrom]

theorem Breaks.optional {parser : Runner α} (breaks : parser.Breaks text next contexts message)
    (moved : text ≠ []) : (Runner.optional parser).Breaks text next contexts message := by
  intro start rest ahead head
  simp [Runner.optional, breaks start rest ahead head, Cursor.movedFrom_advance_length ahead, moved]

theorem Reads.orElse_left {first : Runner α} (reads : first.Reads text next output)
    (second : Runner α) : (Runner.orElse first second).Reads text next output := by
  intro start rest ahead head
  simp [Runner.orElse, reads start rest ahead head, Reply.failsAt]

theorem Breaks.orElse_left {first : Runner α} (breaks : first.Breaks text next contexts message)
    (moved : text ≠ []) (second : Runner α) :
    (Runner.orElse first second).Breaks text next contexts message := by
  intro start rest ahead head
  simp [Runner.orElse, breaks start rest ahead head, Reply.failsAt,
    Cursor.movedFrom_advance_length ahead, moved]

theorem Breaks.orElse_of_start {first : Runner α} {start : Cursor} {rest : List Char}
    (breaks : first.Breaks [] (text.head?.or next) contexts message) (second : Runner α)
    (ahead : start.ahead = text ++ rest) (head : rest.head? = next) :
    Runner.orElse first second start = second start := by
  have failed := breaks start (text ++ rest) (by simpa using ahead)
    (by rw [List.head?_append, head])
  simp [Runner.orElse, failed, Reply.failsAt, Cursor.movedFrom]

theorem Reads.orElse_right {first second : Runner α}
    (breaks : first.Breaks [] (text.head?.or next) contexts message)
    (reads : second.Reads text next output) :
    (Runner.orElse first second).Reads text next output := by
  intro start rest ahead head
  rw [breaks.orElse_of_start second ahead head, reads start rest ahead head]

theorem Breaks.orElse_right {first second : Runner α} {earlier : List String} {reason : String}
    (skipped : first.Breaks [] (text.head?.or next) earlier reason)
    (breaks : second.Breaks text next contexts message) :
    (Runner.orElse first second).Breaks text next contexts message := by
  intro start rest ahead head
  rw [skipped.orElse_of_start second ahead head, breaks start rest ahead head]

theorem Breaks.orElse {first second : Runner α} {earlier : List String} {reason : String}
    (skipped : first.Breaks [] next earlier reason)
    (breaks : second.Breaks [] next contexts message) :
    (Runner.orElse first second).Breaks [] next contexts message :=
  .orElse_right skipped breaks

end

section

variable {text more : List Char} {next : Option Char} {output : α} {other : β}
  {contexts : List String} {message : String} {first : Runner α} {second : Runner β}

theorem Reads.after (reads : second.Reads more next other) {start : Cursor} {rest : List Char}
    (ahead : start.ahead = text ++ more ++ rest) (head : rest.head? = next) :
    second (start.advance text.length) =
      some (.done (start.advance (text ++ more).length) other) := by
  rw [reads _ rest (by simp [ahead]) head, Cursor.advance_advance, List.length_append]

theorem Breaks.after (breaks : second.Breaks more next contexts message) {start : Cursor}
    {rest : List Char} (ahead : start.ahead = text ++ more ++ rest) (head : rest.head? = next) :
    second (start.advance text.length) =
      some (.fail (start.advance (text ++ more).length) contexts message) := by
  rw [breaks _ rest (by simp [ahead]) head, Cursor.advance_advance, List.length_append]

theorem Reads.bind {goOn : α → Runner β} (reads : first.Reads text (more.head?.or next) output)
    (reads' : (goOn output).Reads more next other) :
    (Runner.bind first goOn).Reads (text ++ more) next other := by
  intro start rest ahead head
  simp [Runner.bind, reads.before ahead head, reads'.after ahead head]

theorem Breaks.bind_left (breaks : first.Breaks text next contexts message)
    (goOn : α → Runner β) : (Runner.bind first goOn).Breaks text next contexts message := by
  intro start rest ahead head
  simp [Runner.bind, breaks start rest ahead head]

theorem Breaks.bind_right {goOn : α → Runner β}
    (reads : first.Reads text (more.head?.or next) output)
    (breaks : (goOn output).Breaks more next contexts message) :
    (Runner.bind first goOn).Breaks (text ++ more) next contexts message := by
  intro start rest ahead head
  simp [Runner.bind, reads.before ahead head, breaks.after ahead head]

theorem seqRight_eq_bind (first : Runner α) (second : Runner β) :
    seqRight first second = bind first fun _ => second :=
  rfl

theorem Reads.seqRight (reads : first.Reads text (more.head?.or next) output)
    (reads' : second.Reads more next other) :
    (Runner.seqRight first second).Reads (text ++ more) next other := by
  rw [seqRight_eq_bind]
  exact reads.bind reads'

theorem Breaks.seqRight_left (breaks : first.Breaks text next contexts message)
    (second : Runner β) : (Runner.seqRight first second).Breaks text next contexts message := by
  rw [seqRight_eq_bind]
  exact breaks.bind_left _

theorem Breaks.seqRight_right (reads : first.Reads text (more.head?.or next) output)
    (breaks : second.Breaks more next contexts message) :
    (Runner.seqRight first second).Breaks (text ++ more) next contexts message := by
  rw [seqRight_eq_bind]
  exact .bind_right reads breaks

theorem zip_eq_bind (first : Runner α) (second : Runner β) :
    zip first second = bind first fun output => map (fun other => (output, other)) second :=
  rfl

theorem Reads.zip (reads : first.Reads text (more.head?.or next) output)
    (reads' : second.Reads more next other) :
    (Runner.zip first second).Reads (text ++ more) next (output, other) := by
  rw [zip_eq_bind]
  exact reads.bind (reads'.map _)

theorem Reads.zip_char {c : Char} (reads : first.Reads text (some c) output)
    (closed : second.Reads [c] next other) :
    (Runner.zip first second).Reads (text ++ [c]) next (output, other) :=
  Reads.zip reads closed

theorem Breaks.zip_left (breaks : first.Breaks text next contexts message)
    (second : Runner β) : (Runner.zip first second).Breaks text next contexts message := by
  rw [zip_eq_bind]
  exact breaks.bind_left _

end

end Runner

end CombinatorJson
