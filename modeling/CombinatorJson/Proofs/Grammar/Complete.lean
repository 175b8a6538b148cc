import CombinatorJson.Proofs.Grammar.Value

set_option autoImplicit false

namespace CombinatorJson

namespace Runner

variable {α β : Type} {item : Runner α} {separator : Runner β} {text : List Char}
  {next : Option Char} {items : List α}

def Listed (item : Runner α) (separator : Runner β) (text : List Char) (next : Option Char)
    (items : List α) : Prop :=
  ∃ first more output outputs, text = first ++ more ∧ items = output :: outputs ∧
    item.Reads first (more.head?.or next) output ∧
    Chain (Runner.seqRight separator item) more next outputs

theorem Reads.listed {output : α} (reads : item.Reads text next output)
    (separator : Runner β) : Listed item separator text next [output] :=
  ⟨text, [], output, [], by simp, rfl, by simpa using reads, .nil⟩

theorem Listed.cons {between rest : List Char} {output : α} {mark : β}
    (reads : item.Reads text (between.head?.or (rest.head?.or next)) output)
    (reads' : separator.Reads between (rest.head?.or next) mark) (moved : between ≠ [])
    (tail : Listed item separator rest next items) :
    Listed item separator (text ++ (between ++ rest)) next (output :: items) := by
  obtain ⟨first, more, output', outputs, rfl, rfl, read, chain⟩ := tail
  rw [List.head?_append, Option.or_assoc] at reads reads'
  have step := Chain.cons (reads'.seqRight read) (by simp [moved]) chain
  refine ⟨text, between ++ first ++ more, output, output' :: outputs, by simp, rfl, ?_, step⟩
  simpa [Option.or_assoc] using reads

theorem Listed.reads_sepBy {contexts : List String} {message : String}
    (listed : Listed item separator text next items)
    (breaks : separator.Breaks [] next contexts message) :
    (Runner.sepBy item separator).Reads text next items := by
  obtain ⟨first, more, output, outputs, rfl, rfl, read, chain⟩ := listed
  exact read.sepBy (chain.reads_collectFrom (breaks.seqRight_left item) [output])

end Runner

namespace Grammar

open CombinatorJson.Parser CombinatorJson.Runner

variable {N : Type → Type} (call : {β : Type} → N β → Runner β)
variable {α : Type} {text : List Char} {next : Option Char}

theorem reads_token (c : Char) {space : List Char} (space_ok : IsWhitespace space)
    (stopped : NoSpace next) : ((token c).eval call).Reads (c :: space) next c :=
  ((reads_char _ c _).zip (reads_whitespace _ space_ok stopped)).map Prod.fst

theorem breaks_token {c : Char} (other : next ≠ some c) :
    ((token c).eval call).Breaks [] next [] "satisfy" :=
  ((breaks_char _ other).zip_left _).map Prod.fst

theorem noSpace_of_separator {c : Char} (closing : c ∈ [',', ':', ']', '}']) :
    NoSpace (some c) := by
  rintro _ ⟨⟩
  simp only [List.mem_cons, List.not_mem_nil, or_false] at closing
  rcases closing with rfl | rfl | rfl | rfl <;> decide

theorem numberEnds_of_separator {c : Char} (separator : c ∈ separators) :
    NumberEnds (some c) := by
  rintro _ ⟨⟩
  have all : ∀ d ∈ separators, d.isDigit = false ∧ d ∉ ['.', 'e', 'E'] := by simp [separators]
  exact all c separator

theorem breaks_enclosed {opening closing : Char} (parser : Parser N α)
    (other : next ≠ some opening) :
    ((between (token opening) (sepBy parser (token ',')) (Parser.char closing)).eval call).Breaks []
      next [] "satisfy" :=
  (((breaks_token _ other).seqRight_left _).zip_left _).map Prod.fst

theorem breaks_keyword (keyword : String) {c : Char} {rest : List Char}
    (split : keyword.toList = c :: rest) (other : next ≠ some c) (value : Json) :
    ((mapTo value (Parser.literal keyword) : Parser N Json).eval call).Breaks [] next []
      "satisfy" :=
  .map _ (breaks_literal split other)

theorem reads_keyword (keyword : String) (value : Json) (next : Option Char) :
    ((mapTo value (Parser.literal keyword) : Parser N Json).eval call).Reads keyword.toList next
      value :=
  (reads_literal keyword next).map fun _ => value

theorem breaks_stringLiteral (other : next ≠ some '"') :
    (stringLiteral.eval call).Breaks [] next [] "satisfy" :=
  ((((breaks_char _ other).seqRight_left _).zip_left _).map Prod.fst).map assemble

theorem breaks_number (no_digit : NoDigit next) (no_minus : next ≠ some '-') :
    (number.eval call).Breaks [] next [] "satisfy" := by
  have unsigned := Reads.optional_none (breaks_char call no_minus)
  have literal : (Runner.seqRight _ (digits.eval call)).Breaks ([] ++ []) next [] "satisfy" :=
    .seqRight_right unsigned (breaks_digits call no_digit)
  exact (((literal.seqRight_left _).seqRight_left _).recognize).tryMap readNumber

section

variable (parser : Parser N Json) {value : Json} {c : Char}

theorem breaks_object (other : next ≠ some '\x7b') (parser : Parser N Json) :
    ((object parser).eval call).Breaks [] next [] "satisfy" :=
  (breaks_enclosed _ (pair parser) other).map Json.ofPairs

theorem breaks_array (other : next ≠ some '[') (parser : Parser N Json) :
    ((array parser).eval call).Breaks [] next [] "satisfy" :=
  (breaks_enclosed _ (seqLeft (label arrayElement parser) whitespace) other).map Json.array

theorem breaks_string (other : next ≠ some '"') :
    (string.eval call).Breaks [] next [] "satisfy" :=
  (breaks_stringLiteral _ other).map Json.string

theorem breaks_bool (no_true : next ≠ some 't') (no_false : next ≠ some 'f') :
    (bool.eval call).Breaks [] next [] "satisfy" :=
  .orElse (breaks_keyword call "true" rfl no_true (.bool true))
    (breaks_keyword call "false" rfl no_false (.bool false))

theorem reads_valueOver_object (reads : ((object parser).eval call).Reads text next value) :
    ((valueOver parser).eval call).Reads text next value :=
  ((((reads.orElse_left _).orElse_left _).orElse_left _).orElse_left _).orElse_left _

theorem reads_valueOver_array (reads : ((array parser).eval call).Reads text next value)
    (head : text.head?.or next = some '[') :
    ((valueOver parser).eval call).Reads text next value := by
  have other : text.head?.or next ≠ some '\x7b' := by simp [head]
  have chosen := Reads.orElse_right (breaks_object call other parser) reads
  exact (((chosen.orElse_left _).orElse_left _).orElse_left _).orElse_left _

theorem reads_valueOver_string (reads : (string.eval call).Reads text next value)
    (head : text.head?.or next = some '"') :
    ((valueOver parser).eval call).Reads text next value := by
  have no_brace : text.head?.or next ≠ some '\x7b' := by simp [head]
  have no_bracket : text.head?.or next ≠ some '[' := by simp [head]
  have no_container := (breaks_object call no_brace parser).orElse
    (breaks_array call no_bracket parser)
  exact (((Reads.orElse_right no_container reads).orElse_left _).orElse_left _).orElse_left _

theorem breaks_enclosing (head : next = some c) (other : c ∉ ['\x7b', '[', '"'])
    (parser : Parser N Json) :
    (Runner.orElse (Runner.orElse ((object parser).eval call) ((array parser).eval call))
      (string.eval call)).Breaks [] next [] "satisfy" := by
  simp only [List.mem_cons, List.not_mem_nil, or_false, not_or] at other
  refine .orElse (.orElse (breaks_object call ?_ parser) (breaks_array call ?_ parser))
    (breaks_string call ?_) <;> simp [head, other]

theorem reads_valueOver_number (reads : (number.eval call).Reads text next value)
    (head : text.head?.or next = some c) (starts : c = '-' ∨ c.isDigit = true) :
    ((valueOver parser).eval call).Reads text next value := by
  have other : c ∉ ['\x7b', '[', '"'] := by
    intro member
    -- A number begins with none of the characters that open the alternatives before it.
    have plain : ∀ d ∈ ['\x7b', '[', '"'], ¬(d = '-' ∨ d.isDigit = true) := by simp
    exact plain c member starts
  have chosen := Reads.orElse_right (breaks_enclosing call head other parser) reads
  exact (chosen.orElse_left _).orElse_left _

theorem breaks_nonkeyword (head : next = some c) (begins : c ∈ ['t', 'f', 'n'])
    (parser : Parser N Json) :
    (Runner.orElse (Runner.orElse (Runner.orElse ((object parser).eval call)
      ((array parser).eval call)) (string.eval call)) (number.eval call)).Breaks [] next []
      "satisfy" := by
  have plain : ∀ d ∈ ['t', 'f', 'n'], d ∉ ['\x7b', '[', '"'] ∧ d.isDigit = false ∧ d ≠ '-' := by
    simp
  obtain ⟨other, no_digit, no_minus⟩ := plain c begins
  refine .orElse (breaks_enclosing call head other parser) (breaks_number call ?_ ?_)
  · rw [head]
    rintro _ ⟨⟩
    exact no_digit
  · simpa [head] using no_minus

theorem reads_valueOver_bool (reads : (bool.eval call).Reads text next value)
    (head : text.head?.or next = some c) (begins : c ∈ ['t', 'f', 'n']) :
    ((valueOver parser).eval call).Reads text next value :=
  (Reads.orElse_right (breaks_nonkeyword _ head begins parser) reads).orElse_left _

theorem reads_valueOver_null :
    ((valueOver parser).eval call).Reads "null".toList next .null := by
  have no_keyword := breaks_nonkeyword call (Eq.refl (some 'n')) (by decide) parser
  have no_true : some 'n' ≠ some 't' := by decide
  have no_false : some 'n' ≠ some 'f' := by decide
  have no_bool := breaks_bool call no_true no_false
  exact .orElse_right (no_keyword.orElse no_bool) (reads_keyword call "null" .null next)

theorem breaks_valueOver (separator : c ∈ separators) (parser : Parser N Json) :
    ((valueOver parser).eval call).Breaks [] (some c) [] "satisfy" := by
  have plain : ∀ d ∈ separators, d ∉ ['\x7b', '[', '"'] ∧ d.isDigit = false ∧ some d ≠ some '-' ∧
      some d ≠ some 't' ∧ some d ≠ some 'f' ∧ some d ≠ some 'n' := by
    simp [separators]
  obtain ⟨other, digit, no_minus, no_true, no_false, no_null⟩ := plain c separator
  have no_digit : NoDigit (some c) := by
    rintro _ ⟨⟩
    exact digit
  have enclosing := breaks_enclosing call rfl other parser
  have unkeyed := enclosing.orElse (breaks_number call no_digit no_minus)
  exact (unkeyed.orElse (breaks_bool call no_true no_false)).orElse
    (breaks_keyword call "null" rfl no_null .null)

end

/-- The rules as runners that may nest `depth` deep. -/
def callAt (depth : Nat) {β : Type} (name : Nonterminal β) : Runner β :=
  (rules name).run rules depth

/-- What may stand directly after an item: it continues no number and is no white space. -/
def EndsItem (next : Option Char) : Prop :=
  NumberEnds next ∧ NoSpace next

theorem endsItem_of_separator {c : Char} (separator : c ∈ [',', ':', ']', '}']) :
    EndsItem (some c) := by
  have closing : ∀ d ∈ [',', ':', ']', '}'], d ∈ separators := by simp [separators]
  exact ⟨numberEnds_of_separator (closing c separator), noSpace_of_separator separator⟩

theorem numberEnds_of_space {space : List Char} (space_ok : IsWhitespace space)
    (ends : NumberEnds next) : NumberEnds (space.head?.or next) := by
  cases space with
  | nil => exact ends
  | cons c space =>
    have blank : ∀ d ∈ [' ', '\t', '\n', '\r'], d ∈ separators := by simp [separators]
    exact numberEnds_of_separator (blank c (space_ok c List.mem_cons_self))

theorem noSpace_of_not_separator {c : Char} (other : c ∉ separators) : NoSpace (some c) := by
  rintro _ ⟨⟩ member
  have blank : ∀ d ∈ [' ', '\t', '\n', '\r'], d ∈ separators := by simp [separators]
  exact other (blank c member)

theorem ValueText.noSpace {value : Json} (value_ok : ValueText text value)
    (next : Option Char) : NoSpace (text.head?.or next) := by
  obtain ⟨c, rest, rfl, other⟩ := value_ok.head
  exact noSpace_of_not_separator other

theorem ItemText.noSpace {value : Json} (item_ok : ItemText text value)
    (next : Option Char) : NoSpace (text.head?.or next) := by
  obtain ⟨value_ok, -⟩ := item_ok
  rw [List.head?_append, Option.or_assoc]
  exact value_ok.noSpace _

theorem PairText.noSpace {pair : String × Json} (pair_ok : PairText text pair)
    (next : Option Char) : NoSpace (text.head?.or next) := by
  obtain ⟨key_ok, -, -, -⟩ := pair_ok
  obtain ⟨rest, rfl⟩ := key_ok.head
  exact noSpace_of_not_separator (by decide)

theorem ItemsText.noSpace {items : List Json} (items_ok : ItemsText text items)
    (next : Option Char) : NoSpace (text.head?.or next) := by
  cases items_ok with
  | last item_ok => exact item_ok.noSpace _
  | more item_ok =>
    rw [List.head?_append, Option.or_assoc]
    exact item_ok.noSpace _

theorem PairsText.noSpace {pairs : List (String × Json)} (pairs_ok : PairsText text pairs)
    (next : Option Char) : NoSpace (text.head?.or next) := by
  cases pairs_ok with
  | last pair_ok => exact pair_ok.noSpace _
  | more pair_ok =>
    rw [List.head?_append, Option.or_assoc]
    exact pair_ok.noSpace _

theorem reads_key {keyText before after : List Char} {name : String}
    (key_ok : StringText keyText name) (before_ok : IsWhitespace before)
    (after_ok : IsWhitespace after) (stopped : NoSpace next) :
    (key.eval call).Reads (keyText ++ before ++ ':' :: after) next name := by
  have colon : NoSpace (some ':') := noSpace_of_separator (by decide)
  have quoted := (reads_stringLiteral call key_ok (before.head?.or (some ':'))).label objectKey
  have spaced := (quoted.zip (reads_whitespace call before_ok colon)).map Prod.fst
  have coloned := (spaced.zip_char (reads_char call ':' (after.head?.or next))).map Prod.fst
  rw [List.append_cons]
  exact (coloned.zip (reads_whitespace call after_ok stopped)).map Prod.fst

theorem reader_eq (depth : Nat) :
    ∃ call : {β : Type} → Nonterminal β → Runner β, reader depth = value.eval call := by
  cases depth with
  | zero => exact ⟨_, rfl⟩
  | succ depth => exact ⟨callAt depth, rfl⟩

theorem reads_reader {json : Json}
    (reads : ∀ call : {β : Type} → Nonterminal β → Runner β, (value.eval call).Reads text next json)
    (depth : Nat) : (reader depth).Reads text next json := by
  obtain ⟨call, same⟩ := reader_eq depth
  rw [same]
  exact reads call

def itemReader (name : String) (depth : Nat) : Runner Json :=
  (seqLeft (label name (ref Nonterminal.value)) whitespace).eval (callAt depth)

def pairReader (depth : Nat) : Runner (String × Json) :=
  (pair (ref Nonterminal.value)).eval (callAt depth)

def commaReader (depth : Nat) : Runner Char :=
  (token ',').eval (callAt depth)

theorem breaks_itemReader {c : Char} (separator : c ∈ separators) (name : String) (depth : Nat) :
    (itemReader name depth).Breaks [] (some c) [name] "satisfy" := by
  obtain ⟨call, same⟩ := reader_eq depth
  have broke : (reader depth).Breaks [] (some c) [] "satisfy" := by
    rw [same]
    exact breaks_valueOver _ separator (ref Nonterminal.value)
  exact ((broke.label name).zip_left _).map Prod.fst

theorem breaks_pairReader (other : next ≠ some '"') (depth : Nat) :
    (pairReader depth).Breaks [] next [objectKey] "satisfy" :=
  ((((((((breaks_stringLiteral _ other).label objectKey).zip_left _).map Prod.fst).zip_left _).map
    Prod.fst).zip_left _).map Prod.fst).zip_left _

theorem reads_comma {space : List Char} (space_ok : IsWhitespace space) (stopped : NoSpace next)
    (depth : Nat) : (commaReader depth).Reads (',' :: space) next ',' :=
  reads_token _ ',' space_ok stopped

theorem breaks_comma (other : next ≠ some ',') (depth : Nat) :
    (commaReader depth).Breaks [] next [] "satisfy" :=
  breaks_token _ other

theorem reads_reader_array {space body : List Char} {items : List Json} {depth : Nat}
    (reads : (Runner.sepBy (itemReader arrayElement depth) (commaReader depth)).Reads body
      (some ']') items)
    (space_ok : IsWhitespace space) (stopped : NoSpace (body.head?.or (some ']')))
    (next : Option Char) :
    (reader (depth + 1)).Reads ('[' :: (space ++ body ++ [']'])) next (.array items) := by
  have opened := (reads_token (callAt depth) '[' space_ok stopped).seqRight reads
  have enclosed := (opened.zip_char (reads_char (callAt depth) ']' next)).map Prod.fst
  exact reads_valueOver_array (callAt depth) (ref Nonterminal.value) (enclosed.map Json.array) rfl

theorem reads_object {space body : List Char} {pairs : List (String × Json)} {depth : Nat}
    (reads : (Runner.sepBy (pairReader depth) (commaReader depth)).Reads body (some '}') pairs)
    (space_ok : IsWhitespace space) (stopped : NoSpace (body.head?.or (some '}')))
    (next : Option Char) :
    ((object (ref Nonterminal.value)).eval (callAt depth)).Reads ('{' :: (space ++ body ++ ['}']))
      next (Json.ofPairs pairs) := by
  have opened := (reads_token (callAt depth) '\x7b' space_ok stopped).seqRight reads
  have enclosed := (opened.zip_char (reads_char (callAt depth) '}' next)).map Prod.fst
  exact enclosed.map Json.ofPairs

theorem reads_emptyObject {space : List Char} (space_ok : IsWhitespace space) (depth : Nat)
    (next : Option Char) :
    ((object (ref Nonterminal.value)).eval (callAt depth)).Reads ('{' :: (space ++ ['}'])) next
      (Json.ofPairs []) := by
  have closing : some '}' ≠ some '"' := by decide
  have none := Reads.sepBy_none (breaks_pairReader closing depth) (commaReader depth)
  have stopped : NoSpace (some '}') := noSpace_of_separator (by decide)
  have read := reads_object none space_ok stopped next
  rwa [List.append_nil] at read

theorem countP_enclosed {opening : Char} {space body closing : List Char} {depth : Nat}
    (opens : Json.isOpening opening = true)
    (enough : (opening :: (space ++ body ++ closing)).countP Json.isOpening ≤ depth + 1) :
    body.countP Json.isOpening ≤ depth := by
  rw [List.countP_cons_of_pos opens, List.countP_append, List.countP_append] at enough
  omega

-- By induction on derivations. The white space after an item is read with it, so before a comma or
-- a closing bracket the number at the end of an item has ended.
mutual

theorem ValueText.reads {text : List Char} {value : Json} :
    ValueText text value → ∀ (depth : Nat) (next : Option Char),
      text.countP Json.isOpening ≤ depth → (∀ number, value = .number number → NumberEnds next) →
      (reader depth).Reads text next value
  | .null, depth, next, _, _ =>
    reads_reader (fun call => reads_valueOver_null call _) depth
  | .true, depth, next, _, _ => by
    apply reads_reader
    intro call
    have read := (reads_keyword call "true" (.bool Bool.true) next).orElse_left
      ((mapTo (Json.bool Bool.false) (Parser.literal "false")).eval call)
    exact reads_valueOver_bool (c := 't') call _ read rfl (by decide)
  | .false, depth, next, _, _ => by
    apply reads_reader
    intro call
    have differs : some 'f' ≠ some 't' := by decide
    have no_true := breaks_keyword call "true" rfl differs (.bool Bool.true)
    have read := reads_keyword call "false" (.bool Bool.false) next
    exact reads_valueOver_bool (c := 'f') call _ (.orElse_right no_true read) rfl (by decide)
  | .number number_ok, depth, next, _, ends => by
    apply reads_reader
    intro call
    have read := reads_number call number_ok (ends _ rfl)
    obtain ⟨c, rest, rfl, starts⟩ := number_ok.head
    exact reads_valueOver_number call _ read rfl starts
  | .string string_ok, depth, next, _, _ => by
    apply reads_reader
    intro call
    have read := (reads_stringLiteral call string_ok next).map Json.string
    obtain ⟨rest, rfl⟩ := string_ok.head
    exact reads_valueOver_string call _ read rfl
  | .emptyArray space_ok, 0, _, enough, _ => by simp [Json.isOpening] at enough
  | .emptyArray space_ok, depth + 1, next, _, _ => by
    have closing : ']' ∈ separators := by decide
    have none := Reads.sepBy_none (breaks_itemReader closing arrayElement depth)
      (commaReader depth)
    have stopped : NoSpace (some ']') := noSpace_of_separator (by decide)
    have read := reads_reader_array none space_ok stopped next
    rwa [List.append_nil] at read
  | .array space_ok items_ok, 0, _, enough, _ => by simp [Json.isOpening] at enough
  | .array space_ok items_ok, depth + 1, next, enough, _ => by
    have fewer := countP_enclosed rfl enough
    have listed := (items_ok.reads depth fewer).reads_sepBy (breaks_comma (by decide) depth)
    exact reads_reader_array listed space_ok (items_ok.noSpace _) next
  | .emptyObject space_ok, 0, _, enough, _ => by simp [Json.isOpening] at enough
  | .emptyObject space_ok, depth + 1, next, _, _ =>
    reads_valueOver_object _ _ (reads_emptyObject space_ok depth next)
  | .object space_ok pairs_ok merged, 0, _, enough, _ => by simp [Json.isOpening] at enough
  | .object space_ok pairs_ok merged, depth + 1, next, enough, _ => by
    have fewer := countP_enclosed rfl enough
    have listed := (pairs_ok.reads depth fewer).reads_sepBy (breaks_comma (by decide) depth)
    have read := reads_object listed space_ok (pairs_ok.noSpace _) next
    rw [merged.eq_ofPairs]
    exact reads_valueOver_object _ _ read

theorem ItemText.reads {text : List Char} {value : Json} :
    ItemText text value → ∀ (name : String) (depth : Nat) {next : Option Char},
      text.countP Json.isOpening ≤ depth → EndsItem next →
      (itemReader name depth).Reads text next value
  | .mk value_ok space_ok, name, depth, next, enough, ⟨ends, stopped⟩ => by
    rw [List.countP_append] at enough
    have read := value_ok.reads depth _ (by omega) fun _ _ => numberEnds_of_space space_ok ends
    exact ((read.label name).zip (reads_whitespace (callAt depth) space_ok stopped)).map Prod.fst

theorem ItemsText.reads {text : List Char} {items : List Json} :
    ItemsText text items → ∀ (depth : Nat), text.countP Json.isOpening ≤ depth →
      Runner.Listed (itemReader arrayElement depth) (commaReader depth) text (some ']') items
  | .last item_ok, depth, enough =>
    (item_ok.reads arrayElement depth enough (endsItem_of_separator (by decide))).listed _
  | .more item_ok space_ok rest_ok, depth, enough => by
    simp only [List.countP_append, List.countP_cons] at enough
    have comma_ends : EndsItem (some ',') := endsItem_of_separator (by decide)
    have read := item_ok.reads arrayElement depth (by omega) comma_ends
    have comma := reads_comma space_ok (rest_ok.noSpace (some ']')) depth
    exact .cons read comma (by simp) (rest_ok.reads depth (by omega))

theorem PairText.reads {text : List Char} {pair : String × Json} :
    PairText text pair → ∀ (depth : Nat) {next : Option Char},
      text.countP Json.isOpening ≤ depth → EndsItem next → (pairReader depth).Reads text next pair
  | .mk key_ok before_ok after_ok item_ok, depth, next, enough, ends => by
    simp only [List.countP_append, List.countP_cons] at enough
    have read := item_ok.reads objectValue depth (by omega) ends
    have named := reads_key (callAt depth) key_ok before_ok after_ok (item_ok.noSpace next)
    have zipped := named.zip read
    rwa [List.append_assoc, List.cons_append] at zipped

theorem PairsText.reads {text : List Char} {pairs : List (String × Json)} :
    PairsText text pairs → ∀ (depth : Nat), text.countP Json.isOpening ≤ depth →
      Runner.Listed (pairReader depth) (commaReader depth) text (some '}') pairs
  | .last pair_ok, depth, enough =>
    (pair_ok.reads depth enough (endsItem_of_separator (by decide))).listed _
  | .more pair_ok space_ok rest_ok, depth, enough => by
    simp only [List.countP_append, List.countP_cons] at enough
    have comma_ends : EndsItem (some ',') := endsItem_of_separator (by decide)
    have read := pair_ok.reads depth (by omega) comma_ends
    have comma := reads_comma space_ok (rest_ok.noSpace (some '}')) depth
    exact .cons read comma (by simp) (rest_ok.reads depth (by omega))

end

end Grammar

end CombinatorJson
