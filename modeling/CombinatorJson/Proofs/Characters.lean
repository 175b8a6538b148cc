import CombinatorJson.Parser
import CombinatorJson.Proofs.Answers
import CombinatorJson.Proofs.Sequences

set_option autoImplicit false

namespace CombinatorJson

section

variable {accepts : Char → Bool} {text rest : List Char}

theorem exists_span (accepts : Char → Bool) (whole : List Char) :
    ∃ text rest, whole = text ++ rest ∧ (∀ c ∈ text, accepts c = true) ∧
      ∀ c, rest.head? = some c → accepts c = false := by
  induction whole with
  | nil => exact ⟨[], [], rfl, by simp, by simp⟩
  | cons c whole ih =>
    obtain ⟨text, rest, rfl, accepted, stopped⟩ := ih
    by_cases first : accepts c = true
    · exact ⟨c :: text, rest, rfl, List.forall_mem_cons.mpr ⟨first, accepted⟩, stopped⟩
    · exact ⟨[], c :: (text ++ rest), rfl, by simp, by simpa using first⟩

theorem span_append (accepted : ∀ c ∈ text, accepts c = true)
    (stopped : ∀ c, rest.head? = some c → accepts c = false) :
    (text ++ rest).takeWhile accepts = text ∧ (text ++ rest).dropWhile accepts = rest := by
  have stop : rest.takeWhile accepts = [] ∧ rest.dropWhile accepts = rest := by
    cases rest with
    | nil => simp
    | cons c rest => simp [stopped c rfl]
  exact ⟨by rw [List.takeWhile_append_of_pos accepted, stop.1, List.append_nil],
    by rw [List.dropWhile_append_of_pos accepted, stop.2]⟩

end

namespace Runner

variable {α : Type} {accepts : Char → Bool} {text : List Char} {next : Option Char}

theorem chain_satisfy (accepted : ∀ c ∈ text, accepts c = true) (next : Option Char) :
    Chain (satisfy accepts) text next text := by
  induction text with
  | nil => exact .nil
  | cons c text ih =>
    have tail := ih fun d member => accepted d (List.mem_cons_of_mem c member)
    exact .cons (reads_satisfy (accepted c List.mem_cons_self) _) (List.cons_ne_nil c []) tail

theorem reads_collectFrom_satisfy (accepted : ∀ c ∈ text, accepts c = true)
    (stopped : ∀ c, next = some c → accepts c = false) (before : List Char) :
    (collectFrom (satisfy accepts) before).Reads text next (before.reverse ++ text) :=
  (chain_satisfy accepted next).reads_collectFrom (breaks_satisfy stopped) before

theorem reads_many_satisfy (accepted : ∀ c ∈ text, accepts c = true)
    (stopped : ∀ c, next = some c → accepts c = false) :
    (many (satisfy accepts)).Reads text next text :=
  reads_collectFrom_satisfy accepted stopped []

theorem reads_many1_satisfy (accepted : ∀ c ∈ text, accepts c = true) (nonempty : text ≠ [])
    (stopped : ∀ c, next = some c → accepts c = false) :
    (many1 (satisfy accepts)).Reads text next text := by
  obtain ⟨c, text, rfl⟩ := List.exists_cons_of_ne_nil nonempty
  have tail := reads_collectFrom_satisfy
    (fun d member => accepted d (List.mem_cons_of_mem c member)) stopped [c]
  exact (reads_satisfy (accepted c List.mem_cons_self) _).many1 tail

theorem reads_takeWhile (accepted : ∀ c ∈ text, accepts c = true)
    (stopped : ∀ c, next = some c → accepts c = false) :
    (takeWhile accepts).Reads text next (String.ofList text) := by
  rintro start rest ahead rfl
  have taken := (span_append accepted stopped).1
  simp only [takeWhile, ahead, taken, Cursor.consumedSince_advance_length ahead]

theorem reads_takeWhile1 (accepted : ∀ c ∈ text, accepts c = true) (nonempty : text ≠ [])
    (stopped : ∀ c, next = some c → accepts c = false) :
    (takeWhile1 accepts).Reads text next (String.ofList text) := by
  intro start rest ahead head
  have taken := reads_takeWhile accepted stopped start rest ahead head
  obtain ⟨c, text, rfl⟩ := List.exists_cons_of_ne_nil nonempty
  have first : start.peek? = some c := by simp [Cursor.peek?, ahead]
  simp only [takeWhile1, first, accepted c List.mem_cons_self, if_true, taken]

theorem breaks_takeWhile1 (stopped : ∀ c, next = some c → accepts c = false) :
    (takeWhile1 accepts).Breaks [] next [] "satisfy" := by
  rintro start rest ahead rfl
  have same : start.peek? = rest.head? := by rw [Cursor.peek?, ahead, List.nil_append]
  cases first : rest.head? with
  | none => simp [takeWhile1, same, first, Reply.failAt]
  | some c => simp [takeWhile1, same, first, stopped c first, Reply.failAt]

theorem eq_of_spans (accepts : Char → Bool) {left right : Runner α}
    (same : ∀ (start : Cursor) (text rest : List Char), start.ahead = text ++ rest →
      (∀ c ∈ text, accepts c = true) → (∀ c, rest.head? = some c → accepts c = false) →
      left start = right start) : left = right := by
  funext start
  obtain ⟨text, rest, ahead, accepted, stopped⟩ := exists_span accepts start.ahead
  exact same start text rest ahead accepted stopped

theorem takeWhile_eq_many (accepts : Char → Bool) :
    takeWhile accepts = map String.ofList (many (satisfy accepts)) := by
  apply eq_of_spans accepts
  intro start text rest ahead accepted stopped
  have gathered := (reads_many_satisfy accepted stopped).map String.ofList
  rw [reads_takeWhile accepted stopped start rest ahead rfl, gathered start rest ahead rfl]

theorem takeWhile_eq_recognize (accepts : Char → Bool) :
    takeWhile accepts = recognize (map (fun _ => ()) (many (satisfy accepts))) := by
  apply eq_of_spans accepts
  intro start text rest ahead accepted stopped
  have recognized := ((reads_many_satisfy accepted stopped).map fun _ => ()).recognize
  rw [reads_takeWhile accepted stopped start rest ahead rfl, recognized start rest ahead rfl]

structure TakesRun (accepts : Char → Bool) (parser : Runner String) : Prop where
  reads : ∀ {text : List Char} {next : Option Char}, (∀ c ∈ text, accepts c = true) → text ≠ [] →
    (∀ c, next = some c → accepts c = false) → parser.Reads text next (String.ofList text)
  breaks : ∀ {next : Option Char}, (∀ c, next = some c → accepts c = false) →
    parser.Breaks [] next [] "satisfy"

theorem TakesRun.unique {left right : Runner String} (takes : TakesRun accepts left)
    (takes' : TakesRun accepts right) : left = right := by
  apply eq_of_spans accepts
  intro start text rest ahead accepted stopped
  by_cases missing : text = []
  · subst missing
    rw [takes.breaks stopped start rest ahead rfl, takes'.breaks stopped start rest ahead rfl]
  · rw [takes.reads accepted missing stopped start rest ahead rfl,
      takes'.reads accepted missing stopped start rest ahead rfl]

theorem takesRun_takeWhile1 (accepts : Char → Bool) : TakesRun accepts (takeWhile1 accepts) where
  reads accepted nonempty stopped := reads_takeWhile1 accepted nonempty stopped
  breaks stopped := breaks_takeWhile1 stopped

theorem takesRun_many1 (accepts : Char → Bool) :
    TakesRun accepts (map String.ofList (many1 (satisfy accepts))) where
  reads accepted nonempty stopped := (reads_many1_satisfy accepted nonempty stopped).map _
  breaks stopped := (breaks_satisfy stopped).many1_first.map _

theorem takesRun_recognize (accepts : Char → Bool) :
    TakesRun accepts (recognize (map (fun _ => ()) (many1 (satisfy accepts)))) where
  reads accepted nonempty stopped :=
    ((reads_many1_satisfy accepted nonempty stopped).map _).recognize
  breaks stopped := ((breaks_satisfy stopped).many1_first.map _).recognize

end Runner

structure LongestShared (shared left right : List Char) : Prop where
  of_left : shared <+: left
  of_right : shared <+: right
  longest : ∀ other, other <+: left → other <+: right → other <+: shared

theorem LongestShared.unique {shared shared' left right : List Char}
    (longest : LongestShared shared left right) (longest' : LongestShared shared' left right) :
    shared = shared' := by
  have within := longest'.longest shared longest.of_left longest.of_right
  have within' := longest.longest shared' longest'.of_left longest'.of_right
  exact within.eq_of_length_le within'.length_le

section

variable {shared more rest : List Char} {c : Char}

theorem head?_of_begins (begins : c :: more <+: rest) : rest.head? = some c := by
  obtain ⟨tail, rfl⟩ := begins
  rfl

theorem longestShared_of_differs (differs : rest.head? ≠ some c) :
    LongestShared shared (shared ++ c :: more) (shared ++ rest) where
  of_left := List.prefix_append shared (c :: more)
  of_right := List.prefix_append shared rest
  longest := by
    intro other left right
    rcases List.prefix_or_prefix_of_prefix left (List.prefix_append shared (c :: more)) with
      within | ⟨tail, rfl⟩
    · exact within
    · -- What goes beyond the shared text would begin with both of the differing characters.
      rw [List.prefix_append_right_inj] at left right
      cases tail with
      | nil => simp
      | cons d tail =>
        have same : c = d := Option.some.inj (head?_of_begins left)
        exact absurd (same ▸ head?_of_begins right) differs

end

namespace Runner

variable {start remaining : Cursor}

theorem literal_fail_iff {expected : String} {contexts : List String} {message : String} :
    literal expected start = some (.fail remaining contexts message) ↔
      ¬expected.toList <+: start.ahead ∧ contexts = [] ∧ message = "satisfy" ∧
        ∃ shared, LongestShared shared expected.toList start.ahead ∧
          remaining = start.advance shared.length := by
  rcases exists_common_prefix expected.toList start.ahead with
    ⟨rest, ahead⟩ | ⟨shared, c, more, rest, split, ahead, differs⟩
  · have read := reads_literal expected rest.head? start rest ahead rfl
    simp [read, ahead]
  · have broke := breaks_literal split differs start rest ahead rfl
    have longest : LongestShared shared expected.toList start.ahead := by
      rw [split, ahead]
      exact longestShared_of_differs differs
    have refused : ¬expected.toList <+: start.ahead := by
      rw [split, ahead, List.prefix_append_right_inj]
      exact mt head?_of_begins differs
    constructor
    · intro failed
      rw [broke] at failed
      cases failed
      exact ⟨refused, rfl, rfl, shared, longest, rfl⟩
    · rintro ⟨-, rfl, rfl, shared', longest', rfl⟩
      rw [broke, longest.unique longest']

theorem literalFrom_cons (output : String) (c : Char) (rest : List Char) :
    (fun start => some (literalFrom output (c :: rest) start)) =
      seqRight (satisfy (· == c)) fun start => some (literalFrom output rest start) := by
  -- One more character at the front of a literal is one more parser in front of the sequence.
  funext start
  cases first : start.peek? with
  | none => simp [literalFrom, seqRight, satisfy, first, Reply.failAt]
  | some d =>
    by_cases same : d = c <;> simp [literalFrom, seqRight, satisfy, first, same, Reply.failAt]

end Runner

namespace Parser

variable {N : Type → Type} {call : {β : Type} → N β → Runner β}

theorem eval_foldr_char (output : String) (chars : List Char) :
    (chars.foldr (fun c rest => seqRight (char c) rest) (pure output : Parser N String)).eval call =
      fun start => some (Runner.literalFrom output chars start) := by
  induction chars with
  | nil => rfl
  | cons c rest ih => rw [Runner.literalFrom_cons, ← ih]; rfl

variable (call)

/-- Whatever is taken at once is taken in the same way one character at a time: a run by a
repetition, and a literal by its characters in sequence, so that it fails behind the longest text
that it shares with the text ahead. -/
theorem characters_at_once (accepts : Char → Bool) (expected : String) :
    (takeWhile accepts).eval call = (map String.ofList (many (satisfy accepts))).eval call ∧
      (takeWhile accepts).eval call = (recognize (skipMany (satisfy accepts))).eval call ∧
      (takeWhile1 accepts).eval call = (map String.ofList (many1 (satisfy accepts))).eval call ∧
      (takeWhile1 accepts).eval call = (recognize (skipMany1 (satisfy accepts))).eval call ∧
      (literal expected).eval call =
        (expected.toList.foldr (fun c rest => seqRight (char c) rest) (pure expected)).eval call ∧
      ∀ start remaining contexts message,
        (literal expected).eval call start = some (.fail remaining contexts message) ↔
          ¬expected.toList <+: start.ahead ∧ contexts = [] ∧ message = "satisfy" ∧
            ∃ shared, LongestShared shared expected.toList start.ahead ∧
              remaining = start.advance shared.length := by
  refine ⟨Runner.takeWhile_eq_many accepts, Runner.takeWhile_eq_recognize accepts, ?_, ?_, ?_, ?_⟩
  · exact (Runner.takesRun_takeWhile1 accepts).unique (Runner.takesRun_many1 accepts)
  · exact (Runner.takesRun_takeWhile1 accepts).unique (Runner.takesRun_recognize accepts)
  · exact (eval_foldr_char expected expected.toList).symm
  · exact fun _ _ _ _ => Runner.literal_fail_iff

end Parser

end CombinatorJson
