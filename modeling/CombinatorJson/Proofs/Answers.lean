import CombinatorJson.Proofs.Repetition

/-!
A predictable parser reads a beginning of a text or breaks off in it. The lemmas carry conditions on
that beginning backwards through the combinators, so that the answers of a grammar follow from its
shape.
-/

set_option autoImplicit false

namespace CombinatorJson

namespace Runner

variable {α β γ : Type}

abbrev Reading (α : Type) := List Char → List Char → α → Prop

abbrev Break := List Char → List String → String → Prop

def Answers (parser : Runner α) (whole : List Char) (good : Reading α) (bad : Break) : Prop :=
  (∃ text rest output, whole = text ++ rest ∧ parser.Reads text rest.head? output ∧
      good text rest output) ∨
    ∃ text rest contexts message, whole = text ++ rest ∧
      parser.Breaks text rest.head? contexts message ∧ bad text contexts message

section

variable {parser : Runner α} {whole : List Char} {good : Reading α} {bad : Break}

theorem Answers.through {treated : Runner β} {good' : Reading β} {bad' : Break}
    (answers : parser.Answers whole good bad)
    (reads : ∀ text rest output, whole = text ++ rest → parser.Reads text rest.head? output →
      good text rest output → ∃ output', treated.Reads text rest.head? output' ∧
        good' text rest output')
    (breaks : ∀ text next contexts message, parser.Breaks text next contexts message →
      bad text contexts message → ∃ contexts' message',
        treated.Breaks text next contexts' message' ∧ bad' text contexts' message') :
    treated.Answers whole good' bad' := by
  rcases answers with ⟨text, rest, output, split, read, holds⟩ |
    ⟨text, rest, contexts, message, split, broke, holds⟩
  · obtain ⟨output', read', holds'⟩ := reads text rest output split read holds
    exact .inl ⟨text, rest, output', split, read', holds'⟩
  · obtain ⟨contexts', message', broke', holds'⟩ := breaks text _ contexts message broke holds
    exact .inr ⟨text, rest, contexts', message', split, broke', holds'⟩

theorem Answers.mono {good' : Reading α} {bad' : Break} (answers : parser.Answers whole good bad)
    (reads : ∀ text rest output, whole = text ++ rest → good text rest output →
      good' text rest output)
    (breaks : ∀ text contexts message, bad text contexts message → bad' text contexts message) :
    parser.Answers whole good' bad' := by
  apply answers.through
  · intro text rest output split read holds
    exact ⟨output, read, reads text rest output split holds⟩
  · intro text next contexts message broke holds
    exact ⟨contexts, message, broke, breaks text contexts message holds⟩

theorem answers_satisfy {accepts : Char → Bool} {whole : List Char} {good : Reading Char}
    {bad : Break}
    (accepted : ∀ c rest, whole = c :: rest → accepts c = true → good [c] rest c)
    (rejected : (∀ c, whole.head? = some c → accepts c = false) → bad [] [] "satisfy") :
    (satisfy accepts).Answers whole good bad := by
  by_cases first : ∃ c rest, whole = c :: rest ∧ accepts c = true
  · obtain ⟨c, rest, split, accepts⟩ := first
    exact .inl ⟨[c], rest, c, split, reads_satisfy accepts _, accepted c rest split accepts⟩
  · have refused : ∀ c, whole.head? = some c → accepts c = false := by
      intro c head
      obtain ⟨rest, split⟩ := List.head?_eq_some_iff.mp head
      simpa using fun accepted => first ⟨c, rest, split, accepted⟩
    exact .inr ⟨[], whole, [], "satisfy", rfl, breaks_satisfy refused, rejected refused⟩

theorem answers_endOfInput {good : Reading Unit} {bad : Break} (ended : whole = [] → good [] [] ())
    (more : whole ≠ [] → bad [] [] "endOfInput") : endOfInput.Answers whole good bad := by
  cases whole with
  | nil => exact .inl ⟨[], [], (), rfl, reads_endOfInput, ended rfl⟩
  | cons c rest =>
    exact .inr ⟨[], c :: rest, [], "endOfInput", rfl, breaks_endOfInput c, more (by simp)⟩

theorem exists_common_prefix (left right : List Char) :
    (∃ rest, right = left ++ rest) ∨ ∃ common c more rest, left = common ++ c :: more ∧
      right = common ++ rest ∧ rest.head? ≠ some c := by
  induction left generalizing right with
  | nil => exact .inl ⟨right, rfl⟩
  | cons c left ih =>
    by_cases same : right.head? = some c
    · obtain ⟨right, rfl⟩ := List.head?_eq_some_iff.mp same
      rcases ih right with ⟨rest, rfl⟩ | ⟨common, d, more, rest, rfl, rfl, differs⟩
      · exact .inl ⟨rest, rfl⟩
      · exact .inr ⟨c :: common, d, more, rest, rfl, rfl, differs⟩
    · exact .inr ⟨[], c, left, right, rfl, rfl, same⟩

theorem answers_literal {expected : String} {good : Reading String} {bad : Break}
    (found : ∀ rest, whole = expected.toList ++ rest → good expected.toList rest expected)
    (differs : ∀ matched c more, expected.toList = matched ++ c :: more →
      bad matched [] "satisfy") :
    (literal expected).Answers whole good bad := by
  rcases exists_common_prefix expected.toList whole with
    ⟨rest, split⟩ | ⟨matched, c, more, rest, split, split', head⟩
  · exact .inl ⟨_, rest, _, split, reads_literal expected _, found rest split⟩
  · exact .inr ⟨matched, rest, [], "satisfy", split', breaks_literal split head,
      differs _ _ _ split⟩

theorem Answers.map (f : α → β) {good : Reading β}
    (answers : parser.Answers whole (fun text rest output => good text rest (f output)) bad) :
    (Runner.map f parser).Answers whole good bad := by
  apply answers.through
  · intro text rest output _ read holds
    exact ⟨f output, read.map f, holds⟩
  · intro text next contexts message broke holds
    exact ⟨contexts, message, broke.map f, holds⟩

theorem Answers.tryMap (f : α → Except String β) {good : Reading β}
    (answers : parser.Answers whole
      (fun text rest output => ∃ result, f output = .ok result ∧ good text rest result) bad) :
    (Runner.tryMap f parser).Answers whole good bad := by
  apply answers.through
  · intro text rest output _ read accepted
    obtain ⟨result, accepted, holds⟩ := accepted
    exact ⟨result, read.tryMap accepted, holds⟩
  · intro text next contexts message broke holds
    exact ⟨contexts, message, broke.tryMap f, holds⟩

theorem Answers.label (name : String)
    (answers : parser.Answers whole good
      (fun text contexts message => bad text (name :: contexts) message)) :
    (Runner.label name parser).Answers whole good bad := by
  apply answers.through
  · intro text rest output _ read holds
    exact ⟨output, read.label name, holds⟩
  · intro text next contexts message broke holds
    exact ⟨name :: contexts, message, broke.label name, holds⟩

theorem Answers.recognize {good : Reading String}
    (answers : parser.Answers whole (fun text rest _ => good text rest (String.ofList text)) bad) :
    (Runner.recognize parser).Answers whole good bad := by
  apply answers.through
  · intro text rest output _ read holds
    exact ⟨String.ofList text, read.recognize, holds⟩
  · intro text next contexts message broke holds
    exact ⟨contexts, message, broke.recognize, holds⟩

theorem Answers.optional {good : Reading (Option α)}
    (answers : parser.Answers whole (fun text rest output => good text rest (some output))
      (fun text contexts message =>
        (text = [] → good [] whole none) ∧ (text ≠ [] → bad text contexts message))) :
    (Runner.optional parser).Answers whole good bad := by
  rcases answers with ⟨text, rest, output, split, read, holds⟩ |
    ⟨text, rest, contexts, message, split, broke, absent, holds⟩
  · exact .inl ⟨text, rest, some output, split, read.optional, holds⟩
  · by_cases moved : text = []
    · subst moved
      exact .inl ⟨[], rest, none, split, .optional_none broke, by simpa [split] using absent rfl⟩
    · exact .inr ⟨text, rest, contexts, message, split, broke.optional moved, holds moved⟩

theorem Answers.orElse {second : Runner α}
    (answers : parser.Answers whole good (fun text contexts message =>
      (text = [] → second.Answers whole good bad) ∧ (text ≠ [] → bad text contexts message))) :
    (Runner.orElse parser second).Answers whole good bad := by
  rcases answers with ⟨text, rest, output, split, read, holds⟩ |
    ⟨text, rest, contexts, message, split, broke, other, holds⟩
  · exact .inl ⟨text, rest, output, split, read.orElse_left second, holds⟩
  · by_cases moved : text = []
    · -- The first alternative did not begin, so the answer is that of the second.
      subst moved
      rw [List.nil_append] at split
      subst split
      rcases other rfl with ⟨text, rest, output, rfl, read, holds⟩ |
        ⟨text, rest, contexts, message, rfl, broke', holds⟩
      · rw [List.head?_append] at broke
        exact .inl ⟨text, rest, output, rfl, .orElse_right broke read, holds⟩
      · rw [List.head?_append] at broke
        exact .inr ⟨text, rest, contexts, message, rfl, .orElse_right broke broke', holds⟩
    · exact .inr ⟨text, rest, contexts, message, split, broke.orElse_left moved second,
        holds moved⟩

theorem Answers.bind {goOn : α → Runner β} {good : Reading β}
    (answers : parser.Answers whole (fun text rest output => (goOn output).Answers rest
      (fun text' rest' output' => good (text ++ text') rest' output')
      (fun text' contexts message => bad (text ++ text') contexts message)) bad) :
    (Runner.bind parser goOn).Answers whole good bad := by
  rcases answers with ⟨text, rest, output, rfl, read, answers⟩ |
    ⟨text, rest, contexts, message, split, broke, holds⟩
  · rcases answers with ⟨text', rest', output', rfl, read', holds⟩ |
      ⟨text', rest', contexts, message, rfl, broke, holds⟩
    · rw [List.head?_append] at read
      exact .inl ⟨text ++ text', rest', output', by simp, read.bind read', holds⟩
    · rw [List.head?_append] at read
      exact .inr ⟨text ++ text', rest', contexts, message, by simp, .bind_right read broke, holds⟩
  · exact .inr ⟨text, rest, contexts, message, split, broke.bind_left goOn, holds⟩

theorem Answers.seqRight {second : Runner β} {good : Reading β}
    (answers : parser.Answers whole (fun text rest _ => second.Answers rest
      (fun text' rest' output => good (text ++ text') rest' output)
      (fun text' contexts message => bad (text ++ text') contexts message)) bad) :
    (Runner.seqRight parser second).Answers whole good bad := by
  rw [seqRight_eq_bind]
  exact answers.bind

theorem Answers.zip {second : Runner β} {good : Reading (α × β)}
    (answers : parser.Answers whole (fun text rest output => second.Answers rest
      (fun text' rest' output' => good (text ++ text') rest' (output, output'))
      (fun text' contexts message => bad (text ++ text') contexts message)) bad) :
    (Runner.zip parser second).Answers whole good bad := by
  rw [zip_eq_bind]
  apply Answers.bind
  apply answers.mono
  · intro text rest output _ answers'
    exact answers'.map _
  · exact fun _ _ _ holds => holds

theorem Answers.seqLeft {second : Runner β}
    (answers : parser.Answers whole (fun text rest output => second.Answers rest
      (fun text' rest' _ => good (text ++ text') rest' output)
      (fun text' contexts message => bad (text ++ text') contexts message)) bad) :
    (Runner.map Prod.fst (Runner.zip parser second)).Answers whole good bad :=
  .map Prod.fst (.zip answers)

end

section

variable {item : Runner α} {whole : List Char} {good : Reading (List α)} {bad : Break}

/-- What each item passes on to the next, about the text passed so far and the items found in it: an
item that breaks off where it began ends the repetition, and any other break is one of the whole. -/
def Continues (item : Runner α) (whole : List Char) (good : Reading (List α)) (bad : Break)
    (holds : List Char → List α → Prop) : Prop :=
  ∀ text rest items, whole = text ++ rest → holds text items →
    item.Answers rest
      (fun text' _ output => text' ≠ [] ∧ holds (text ++ text') (items ++ [output]))
      (fun text' contexts message => (text' = [] → good text rest items) ∧
        (text' ≠ [] → bad (text ++ text') contexts message))

theorem Continues.exists_chain {holds : List Char → List α → Prop}
    (continues : Continues item whole good bad holds) (text rest : List Char) (items : List α)
    (split : whole = text ++ rest) (held : holds text items) :
    ∃ more stop rest' outputs contexts message, rest = more ++ stop ++ rest' ∧
      Chain item more (stop.head?.or rest'.head?) outputs ∧
      item.Breaks stop rest'.head? contexts message ∧
      (stop = [] → good (text ++ more) rest' (items ++ outputs)) ∧
      (stop ≠ [] → bad (text ++ more ++ stop) contexts message) := by
  -- By induction on the text ahead, of which every item takes some.
  induction size : rest.length using Nat.strongRecOn generalizing text rest items with
  | ind length ih =>
    rcases continues text rest items split held with
      ⟨text', rest', output, rfl, read, moved, held'⟩ |
      ⟨stop, rest', contexts, message, rfl, broke, ended, failed⟩
    · have shorter : rest'.length < length := by
        have positive := List.length_pos_iff.mpr moved
        simp only [List.length_append] at size
        omega
      obtain ⟨more, stop, rest'', outputs, contexts, message, rfl, tail, broke, ended, failed⟩ :=
        ih _ shorter (text ++ text') rest' (items ++ [output]) (by simp [split]) held' rfl
      refine ⟨text' ++ more, stop, rest'', output :: outputs, contexts, message, by simp,
        .cons ?_ moved tail, broke, ?_, ?_⟩
      · simpa using read
      · simpa using ended
      · simpa using failed
    · refine ⟨[], stop, rest', [], contexts, message, by simp, .nil, broke, ?_, ?_⟩
      · rintro rfl
        simpa using ended rfl
      · simpa using failed

theorem answers_collectFrom {before : List α} (holds : List Char → List α → Prop)
    (initially : holds [] before.reverse) (continues : Continues item whole good bad holds) :
    (collectFrom item before).Answers whole good bad := by
  obtain ⟨more, stop, rest, outputs, contexts, message, split, tail, broke, ended, failed⟩ :=
    continues.exists_chain [] whole before.reverse rfl initially
  by_cases stopped : stop = []
  · subst stopped
    exact .inl ⟨more, rest, _, by simpa using split, tail.reads_collectFrom broke before,
      by simpa using ended rfl⟩
  · exact .inr ⟨more ++ stop, rest, contexts, message, split,
      tail.breaks_collectFrom broke stopped before, by simpa using failed stopped⟩

theorem answers_many (holds : List Char → List α → Prop) (initially : holds [] [])
    (continues : Continues item whole good bad holds) : (many item).Answers whole good bad :=
  answers_collectFrom holds initially continues

theorem answers_pure {output : α} {good : Reading α} (holds : good [] whole output) :
    (pure output).Answers whole good bad :=
  .inl ⟨[], whole, output, rfl, reads_pure output _, holds⟩

theorem Answers.sepBy {separator : Runner β}
    (answers : item.Answers whole
      (fun text rest output => text ≠ [] ∧
        (collectFrom (Runner.seqRight separator item) [output]).Answers rest
          (fun text' rest' outputs => good (text ++ text') rest' outputs)
          (fun text' contexts message => bad (text ++ text') contexts message))
      (fun text contexts message =>
        (text = [] → good [] whole []) ∧ (text ≠ [] → bad text contexts message))) :
    (Runner.sepBy item separator).Answers whole good bad := by
  rw [sepBy_eq_orElse, sepBy1_eq_bind]
  apply Answers.orElse
  apply Answers.bind
  apply answers.mono
  · intro text rest output _ holds
    obtain ⟨moved, tail⟩ := holds
    -- Past a first item the list has begun, so a failure is not at its start.
    apply tail.mono
    · exact fun _ _ _ _ read => read
    · exact fun more _ _ broke => ⟨fun empty => absurd empty (by simp [moved]), fun _ => broke⟩
  · intro text contexts message holds
    exact ⟨fun empty => answers_pure (holds.1 empty), holds.2⟩

def Counts (item : Runner α) (count : Nat) (whole : List Char) (bad : Break)
    (holds : List Char → List α → Prop) : Prop :=
  ∀ text rest items, items.length < count → whole = text ++ rest → holds text items →
    item.Answers rest
      (fun text' _ output => text' ≠ [] ∧ holds (text ++ text') (items ++ [output]))
      (fun text' contexts message => bad (text ++ text') contexts message)

theorem Counts.exists_chain {count : Nat} {holds : List Char → List α → Prop}
    (counts : Counts item count whole bad holds) (missing : Nat) (text rest : List Char)
    (items : List α) (size : items.length + missing = count) (split : whole = text ++ rest)
    (held : holds text items) :
    (∃ more rest' outputs, rest = more ++ rest' ∧ outputs.length = missing ∧
      Chain item more rest'.head? outputs ∧ holds (text ++ more) (items ++ outputs)) ∨
    ∃ more stop rest' outputs contexts message, rest = more ++ stop ++ rest' ∧
      outputs.length < missing ∧ Chain item more (stop.head?.or rest'.head?) outputs ∧
      item.Breaks stop rest'.head? contexts message ∧
      bad (text ++ more ++ stop) contexts message := by
  induction missing generalizing text rest items with
  | zero => exact .inl ⟨[], rest, [], rfl, rfl, .nil, by simpa using held⟩
  | succ missing ih =>
    rcases counts text rest items (by omega) split held with
      ⟨text', rest', output, rfl, read, moved, held'⟩ |
      ⟨stop, rest', contexts, message, rfl, broke, failed⟩
    · have size' : (items ++ [output]).length + missing = count := by
        simp only [List.length_append, List.length_singleton]
        omega
      rcases ih (text ++ text') rest' (items ++ [output]) size' (by simp [split]) held' with
        ⟨more, rest'', outputs, rfl, length, tail, held''⟩ |
        ⟨more, stop, rest'', outputs, contexts, message, rfl, fewer, tail, broke, failed⟩
      · rw [List.head?_append] at read
        exact .inl ⟨text' ++ more, rest'', output :: outputs, by simp, by simp [length],
          .cons read moved tail, by simpa using held''⟩
      · exact .inr ⟨text' ++ more, stop, rest'', output :: outputs, contexts, message, by simp,
          by simpa using fewer, .cons (by simpa using read) moved tail, broke,
          by simpa using failed⟩
    · exact .inr ⟨[], stop, rest', [], contexts, message, by simp, by simp, .nil, broke,
        by simpa using failed⟩

theorem answers_count (count : Nat) (holds : List Char → List α → Prop) (initially : holds [] [])
    (counts : Counts item count whole bad holds)
    (complete : ∀ text rest items, items.length = count → holds text items →
      good text rest items) :
    (Runner.count count item).Answers whole good bad := by
  rcases counts.exists_chain count [] whole [] (Nat.zero_add count) rfl initially with
    ⟨text, rest, outputs, split, length, tail, held⟩ |
    ⟨more, stop, rest, outputs, contexts, message, split, fewer, tail, broke, failed⟩
  · subst length
    exact .inl ⟨text, rest, outputs, split, tail.reads_count, complete _ _ _ rfl held⟩
  · obtain ⟨missing, rfl⟩ : ∃ missing, count = outputs.length + (missing + 1) :=
      ⟨count - outputs.length - 1, by omega⟩
    exact .inr ⟨more ++ stop, rest, contexts, message, split, tail.breaks_count broke missing,
      failed⟩

end

end Runner

end CombinatorJson
