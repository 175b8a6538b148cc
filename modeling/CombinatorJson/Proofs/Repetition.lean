import CombinatorJson.Proofs.Prediction

set_option autoImplicit false

namespace CombinatorJson

namespace Runner

variable {α β γ : Type}

/-- The parser takes the text item by item, before a rest that begins with `next`. -/
inductive Chain (item : Runner β) : List Char → Option Char → List β → Prop where
  | nil {next : Option Char} : Chain item [] next []
  | cons {text more : List Char} {next : Option Char} {output : β} {outputs : List β}
      (reads : item.Reads text (more.head?.or next) output) (moved : text ≠ [])
      (tail : Chain item more next outputs) : Chain item (text ++ more) next (output :: outputs)

section

variable {item : Runner β} {text more : List Char} {next : Option Char} {outputs : List β}
  {contexts : List String} {message : String}

theorem Chain.repeatFrom (chain : Chain item text next outputs) (absorb : α → β → α)
    {start : Cursor} {rest rounds : List Char} (gathered : α) (ahead : start.ahead = text ++ rest)
    (head : rest.head? = next) (enough : text.length ≤ rounds.length) :
    ∃ left, Runner.repeatFrom item absorb rounds start gathered =
      Runner.repeatFrom item absorb left (start.advance text.length)
        (outputs.foldl absorb gathered) := by
  -- Every item takes at least one character, so the rounds cannot run out before the chain does.
  induction chain generalizing start rounds gathered with
  | nil => exact ⟨rounds, by simp⟩
  | @cons text more next output outputs reads moved tail ih =>
    have taken := reads.before ahead head
    have ahead' : start.ahead = text ++ (more ++ rest) := by simpa using ahead
    obtain ⟨c, text, rfl⟩ := List.exists_cons_of_ne_nil moved
    cases rounds with
    | nil => simp at enough
    | cons round rounds =>
      have fewer : more.length ≤ rounds.length := by
        simp at enough
        omega
      obtain ⟨left, same⟩ := ih (absorb gathered output) (Cursor.ahead_advance_length ahead') head fewer
      refine ⟨left, ?_⟩
      rw [Runner.repeatFrom, taken]
      simp only [Reply.remaining, Cursor.movedFrom_advance_length ahead', List.isEmpty_cons,
        Bool.not_false, if_true, same, Cursor.advance_advance, List.length_append, List.foldl_cons]

theorem Chain.repeatFrom_done (chain : Chain item text next outputs)
    (breaks : item.Breaks [] next contexts message) (absorb : α → β → α) {start : Cursor}
    {rest rounds : List Char} (gathered : α) (ahead : start.ahead = text ++ rest)
    (head : rest.head? = next) (enough : text.length ≤ rounds.length) :
    Runner.repeatFrom item absorb rounds start gathered =
      some (.done (start.advance text.length) (outputs.foldl absorb gathered)) := by
  obtain ⟨left, same⟩ := chain.repeatFrom absorb gathered ahead head enough
  have stop := breaks (start.advance text.length) rest (Cursor.ahead_advance_length ahead) head
  rw [same]
  cases left <;> simp [Runner.repeatFrom, stop, Reply.remaining, Cursor.movedFrom]

theorem Chain.repeatFrom_fail (chain : Chain item text (more.head?.or next) outputs)
    (breaks : item.Breaks more next contexts message) (moved : more ≠ []) (absorb : α → β → α)
    {start : Cursor} {rest rounds : List Char} (gathered : α)
    (ahead : start.ahead = text ++ more ++ rest) (head : rest.head? = next)
    (enough : text.length ≤ rounds.length) :
    Runner.repeatFrom item absorb rounds start gathered =
      some (.fail (start.advance (text ++ more).length) contexts message) := by
  have ahead' : start.ahead = text ++ (more ++ rest) := by simpa using ahead
  obtain ⟨left, same⟩ := chain.repeatFrom absorb gathered ahead'
    (by rw [List.head?_append, head]) enough
  have stop := breaks (start.advance text.length) rest (Cursor.ahead_advance_length ahead') head
  have far := Cursor.movedFrom_advance_length (Cursor.ahead_advance_length ahead')
  rw [Cursor.advance_advance] at stop far
  rw [same]
  cases left <;> simp [Runner.repeatFrom, stop, Reply.remaining, far, moved]

theorem Chain.reads_collectFrom (chain : Chain item text next outputs)
    (breaks : item.Breaks [] next contexts message) (before : List β) :
    (collectFrom item before).Reads text next (before.reverse ++ outputs) := by
  intro start rest ahead head
  have enough : text.length ≤ start.ahead.length := by simp [ahead]
  simp [collectFrom, chain.repeatFrom_done breaks _ before ahead head enough, Reply.map]

theorem Chain.breaks_collectFrom (chain : Chain item text (more.head?.or next) outputs)
    (breaks : item.Breaks more next contexts message) (moved : more ≠ []) (before : List β) :
    (collectFrom item before).Breaks (text ++ more) next contexts message := by
  intro start rest ahead head
  have enough : text.length ≤ start.ahead.length := by simp [ahead]
  simp [collectFrom, chain.repeatFrom_fail breaks moved _ before ahead head enough, Reply.map]

end

section

variable {item : Runner β} {text more : List Char} {next : Option Char} {outputs : List β}
  {contexts : List String} {message : String}

theorem Chain.countFrom (chain : Chain item text next outputs) (count : Nat) {start : Cursor}
    {rest : List Char} (gathered : List β) (ahead : start.ahead = text ++ rest)
    (head : rest.head? = next) :
    Runner.countFrom item (outputs.length + count) start gathered =
      Runner.countFrom item count (start.advance text.length) (outputs.reverse ++ gathered) := by
  induction chain generalizing start gathered with
  | nil => simp
  | @cons text more next output outputs reads moved tail ih =>
    have taken := reads.before ahead head
    have ahead' : (start.advance text.length).ahead = more ++ rest := by simp [ahead]
    have fewer : (output :: outputs).length + count = outputs.length + count + 1 := by
      simp only [List.length_cons]
      omega
    rw [fewer, Runner.countFrom, taken]
    simp only [ih (output :: gathered) ahead' head, Cursor.advance_advance, List.length_append,
      List.reverse_cons, List.append_assoc, List.singleton_append]

theorem Chain.reads_count (chain : Chain item text next outputs) :
    (Runner.count outputs.length item).Reads text next outputs := by
  intro start rest ahead head
  have counted := chain.countFrom 0 [] ahead head
  simpa [Runner.count, Runner.countFrom] using counted

theorem Chain.breaks_count (chain : Chain item text (more.head?.or next) outputs)
    (breaks : item.Breaks more next contexts message) (missing : Nat) :
    (Runner.count (outputs.length + (missing + 1)) item).Breaks (text ++ more) next contexts
      message := by
  intro start rest ahead head
  have ahead' : start.ahead = text ++ (more ++ rest) := by simpa using ahead
  have counted := chain.countFrom (missing + 1) [] ahead' (by rw [List.head?_append, head])
  rw [Runner.count, counted, Runner.countFrom, breaks.after ahead head]

end

section

variable {item : Runner α} {separator : Runner β} {text more : List Char} {next : Option Char}
  {output : α} {outputs : List α} {contexts : List String} {message : String}

theorem many1_eq_bind (item : Runner α) :
    many1 item = bind item fun output => collectFrom item [output] :=
  rfl

theorem Reads.many1 (reads : item.Reads text (more.head?.or next) output)
    (rest : (collectFrom item [output]).Reads more next outputs) :
    (Runner.many1 item).Reads (text ++ more) next outputs := by
  rw [many1_eq_bind]
  exact reads.bind rest

theorem Breaks.many1_first (breaks : item.Breaks text next contexts message) :
    (Runner.many1 item).Breaks text next contexts message := by
  rw [many1_eq_bind]
  exact breaks.bind_left _

theorem sepBy1_eq_bind (item : Runner α) (separator : Runner β) :
    sepBy1 item separator =
      bind item fun output => collectFrom (seqRight separator item) [output] :=
  rfl

theorem sepBy_eq_orElse (item : Runner α) (separator : Runner β) :
    sepBy item separator = orElse (sepBy1 item separator) (pure []) := by
  funext start
  unfold sepBy orElse
  cases sepBy1 item separator start <;> rfl

theorem Reads.sepBy (reads : item.Reads text (more.head?.or next) output)
    (rest : (collectFrom (Runner.seqRight separator item) [output]).Reads more next outputs) :
    (Runner.sepBy item separator).Reads (text ++ more) next outputs := by
  rw [sepBy_eq_orElse, sepBy1_eq_bind]
  exact (reads.bind rest).orElse_left _

theorem Reads.sepBy_none (breaks : item.Breaks [] next contexts message)
    (separator : Runner β) : (Runner.sepBy item separator).Reads [] next [] := by
  rw [sepBy_eq_orElse, sepBy1_eq_bind]
  exact .orElse_right (breaks.bind_left _) (reads_pure [] next)

end

end Runner

end CombinatorJson
