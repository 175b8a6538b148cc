import CombinatorJson.Proofs.Grammar.Token

set_option autoImplicit false

namespace CombinatorJson

namespace Grammar

open CombinatorJson.Parser CombinatorJson.Runner

variable {N : Type → Type} (call : {β : Type} → N β → Runner β)
variable {whole text : List Char} {next : Option Char}

theorem splitDigits_append {rest : List Char} (accepted : ∀ c ∈ text, c.isDigit = true)
    (stopped : NoDigit rest.head?) : Numeral.splitDigits (text ++ rest) = (text, rest) := by
  obtain ⟨taken, dropped⟩ := span_append accepted stopped
  simp [Numeral.splitDigits, taken, dropped]

theorem Digits.head (digits_ok : Digits text) : ∃ c rest, text = c :: rest ∧ c.isDigit = true := by
  obtain ⟨c, rest, rfl⟩ := List.exists_cons_of_ne_nil digits_ok.1
  exact ⟨c, rest, rfl, digits_ok.2 c List.mem_cons_self⟩

theorem Digits.head_ne {c : Char} (digits_ok : Digits text) (other : c.isDigit = false)
    (next : Option Char) : text.head?.or next ≠ some c := by
  obtain ⟨d, rest, rfl, digit⟩ := digits_ok.head
  rintro ⟨⟩
  rw [digit] at other
  contradiction

theorem ExponentText.head {power : Int} (exponent_ok : ExponentText text power) :
    text = [] ∨ ∃ mark rest, text = mark :: rest ∧ mark ∈ ['e', 'E'] := by
  cases exponent_ok with
  | absent => exact .inl rfl
  | present mark_ok => exact .inr ⟨_, _, rfl, mark_ok⟩

theorem FractionText.head {digits : List Char} (fraction_ok : FractionText text digits) :
    text = [] ∨ ∃ rest, text = '.' :: rest := by
  cases fraction_ok with
  | absent => exact .inl rfl
  | present => exact .inr ⟨_, rfl⟩

theorem not_isDigit_of_mark {c : Char} (mark_ok : c ∈ ['e', 'E']) : c.isDigit = false := by
  simp only [List.mem_cons, List.not_mem_nil, or_false] at mark_ok
  rcases mark_ok with rfl | rfl <;> decide

theorem ExponentText.noDigit {power : Int} (exponent_ok : ExponentText text power)
    (stopped : NoDigit next) : NoDigit (text.head?.or next) := by
  rcases exponent_ok.head with rfl | ⟨mark, rest, rfl, mark_ok⟩
  · exact stopped
  · rintro c ⟨⟩
    exact not_isDigit_of_mark mark_ok

theorem ExponentText.no_point {power : Int} (exponent_ok : ExponentText text power)
    (other : next ≠ some '.') : text.head?.or next ≠ some '.' := by
  rcases exponent_ok.head with rfl | ⟨mark, rest, rfl, mark_ok⟩
  · exact other
  · rintro ⟨⟩
    simp at mark_ok

theorem FractionText.noDigit {digits : List Char} (fraction_ok : FractionText text digits)
    (stopped : NoDigit next) : NoDigit (text.head?.or next) := by
  rcases fraction_ok.head with rfl | ⟨rest, rfl⟩
  · exact stopped
  · rintro c ⟨⟩
    decide

theorem splitSign_digits {sign digits : List Char} {negative : Bool}
    (sign_ok : ExponentSignText sign negative) (digits_ok : Digits digits) :
    Numeral.splitSign (sign ++ digits) = (negative, digits) := by
  cases sign_ok with
  | absent =>
    obtain ⟨c, digits, rfl⟩ := List.exists_cons_of_ne_nil digits_ok.1
    have digit := digits_ok.2 c List.mem_cons_self
    simp only [List.nil_append, Numeral.splitSign]
    split <;> simp_all
  | plus => rfl
  | minus => rfl

theorem exponent?_of_exponentText {power : Int} (exponent_ok : ExponentText text power) :
    Numeral.exponent? text = some power := by
  cases exponent_ok with
  | absent => rfl
  | @present mark sign digits negative mark_ok sign_ok digits_ok =>
    have ended : NoDigit ([] : List Char).head? := by simp [NoDigit]
    have split := splitDigits_append digits_ok.2 ended
    rw [List.append_nil] at split
    have nonempty : digits.isEmpty = false := by simpa using digits_ok.1
    have mark_ok' : mark = 'e' ∨ mark = 'E' := by simpa using mark_ok
    simp [Numeral.exponent?, splitSign_digits sign_ok digits_ok, split, nonempty, mark_ok',
      decimalValue]

theorem splitFraction?_of_fractionText {digits rest : List Char}
    (fraction_ok : FractionText text digits) (stopped : NoDigit rest.head?)
    (no_point : rest.head? ≠ some '.') :
    Numeral.splitFraction? (text ++ rest) = some (digits, rest) := by
  cases fraction_ok with
  | absent =>
    simp only [List.nil_append, Numeral.splitFraction?]
    split
    · simp at no_point
    · rfl
  | present digits_ok =>
    simp [Numeral.splitFraction?, splitDigits_append digits_ok.2 stopped, digits_ok.1]

theorem read?_of_numberText {numeral : Numeral} (number_ok : NumberText text numeral) :
    Numeral.read? text = some numeral := by
  obtain @⟨sign, whole, fraction, digits, exponent, negative, power, sign_ok, whole_ok,
    fraction_ok, exponent_ok⟩ := number_ok
  have ended : NoDigit exponent.head? := by
    have ended : NoDigit none := by simp [NoDigit]
    simpa using exponent_ok.noDigit ended
  have no_point : exponent.head? ≠ some '.' := by
    have ended : none ≠ some '.' := nofun
    simpa using exponent_ok.no_point ended
  have split : Numeral.splitDigits (whole ++ (fraction ++ exponent)) =
      (whole, fraction ++ exponent) := by
    apply splitDigits_append whole_ok.2
    rw [List.head?_append]
    exact fraction_ok.noDigit ended
  have nonempty : whole.isEmpty = false := by simpa using whole_ok.1
  cases sign_ok with
  | absent =>
    -- Without a sign the reading must not take the first digit for one.
    obtain ⟨c, whole, rfl⟩ := List.exists_cons_of_ne_nil whole_ok.1
    have no_minus : c ≠ '-' := by
      have other : '-'.isDigit = false := rfl
      simpa using whole_ok.head_ne other none
    simp only [List.cons_append] at split
    simp [Numeral.read?, no_minus, split, splitFraction?_of_fractionText fraction_ok ended no_point,
      exponent?_of_exponentText exponent_ok, decimalValue]
  | minus =>
    simp [Numeral.read?, split, nonempty, splitFraction?_of_fractionText fraction_ok ended no_point,
      exponent?_of_exponentText exponent_ok, decimalValue]

theorem readNumber_of_numberText {numeral : Numeral} (number_ok : NumberText text numeral) :
    readNumber (String.ofList text) = .ok (.number numeral.toBinary) := by
  simp [readNumber, read?_of_numberText number_ok]

theorem contains_marks (c : Char) : "eE".toList.contains c = true ↔ c ∈ ['e', 'E'] := by
  simp

theorem contains_signs (c : Char) : "+-".toList.contains c = true ↔ c ∈ ['+', '-'] := by
  simp

theorem answers_sign (call : {β : Type} → N β → Runner β) (whole : List Char) :
    ((Parser.optional (Parser.char '-')).eval call).Answers whole
      (fun text _ _ => ∃ negative, SignText text negative) (fun _ _ _ => False) := by
  refine .optional (answers_satisfy ?_ ?_)
  · intro c _ _ accepted
    have minus : c = '-' := by simpa using accepted
    exact minus ▸ ⟨true, .minus⟩
  · exact fun _ => ⟨fun _ => ⟨false, .absent⟩, fun moved => absurd rfl moved⟩

theorem answers_fraction (call : {β : Type} → N β → Runner β) (whole : List Char) :
    ((Parser.optional fraction).eval call).Answers whole
      (fun text _ _ => ∃ digits, FractionText text digits)
      (fun text contexts message => text = ['.'] ∧ contexts = [] ∧ message = "satisfy") := by
  refine .optional (.seqRight (answers_satisfy ?_ ?_))
  · intro c rest _ accepted
    have point : c = '.' := by simpa using accepted
    subst point
    refine (answers_digits call rest).mono ?_ ?_
    · exact fun _ _ _ _ digits_ok => ⟨_, .present digits_ok.1⟩
    · rintro _ _ _ ⟨rfl, rfl, rfl⟩
      exact ⟨fun same => absurd same (by simp), fun _ => ⟨rfl, rfl, rfl⟩⟩
  · exact fun _ => ⟨fun _ => ⟨[], .absent⟩, fun moved => absurd rfl moved⟩

theorem answers_exponentSign (call : {β : Type} → N β → Runner β) (whole : List Char) :
    ((Parser.optional (Parser.oneOf "+-")).eval call).Answers whole
      (fun text _ _ => ∃ negative, ExponentSignText text negative) (fun _ _ _ => False) := by
  refine .optional (answers_satisfy ?_ ?_)
  · intro c _ _ accepted
    have member := (contains_signs c).mp accepted
    simp only [List.mem_cons, List.not_mem_nil, or_false] at member
    rcases member with rfl | rfl
    · exact ⟨false, .plus⟩
    · exact ⟨true, .minus⟩
  · exact fun _ => ⟨fun _ => ⟨false, .absent⟩, fun moved => absurd rfl moved⟩

theorem answers_exponent (call : {β : Type} → N β → Runner β) (whole : List Char) :
    ((Parser.optional exponent).eval call).Answers whole
      (fun text _ _ => ∃ power, ExponentText text power)
      (fun text contexts message =>
        (∃ mark sign negative, mark ∈ ['e', 'E'] ∧ ExponentSignText sign negative ∧
          text = mark :: sign) ∧ contexts = [] ∧ message = "satisfy") := by
  refine .optional (.seqRight (.seqRight (answers_satisfy ?_ ?_)))
  · intro mark rest _ accepted
    have mark_ok := (contains_marks mark).mp accepted
    refine (answers_exponentSign call rest).mono ?_ (fun _ _ _ never => never.elim)
    rintro sign rest' _ _ ⟨negative, sign_ok⟩
    refine (answers_digits call rest').mono ?_ ?_
    · exact fun _ _ _ _ digits_ok => ⟨_, .present mark_ok sign_ok digits_ok.1⟩
    · rintro _ _ _ ⟨rfl, rfl, rfl⟩
      exact ⟨fun same => absurd same (by simp),
        fun _ => ⟨⟨mark, sign, negative, mark_ok, sign_ok, by simp⟩, rfl, rfl⟩⟩
  · exact fun _ => ⟨fun _ => ⟨0, .absent⟩, fun moved => absurd rfl moved⟩

theorem answers_numberLiteral (call : {β : Type} → N β → Runner β) (whole : List Char) :
    (numberLiteral.eval call).Answers whole
      (fun text _ _ => ∃ numeral, NumberText text numeral)
      (fun text contexts message =>
        (text = [] ∨ BrokenNumber text) ∧ contexts = [] ∧ message = "satisfy") := by
  refine .seqRight (.seqRight (.seqRight ?_))
  refine (answers_sign call whole).mono ?_ (fun _ _ _ never => never.elim)
  rintro sign rest _ _ ⟨negative, sign_ok⟩
  refine (answers_digits call rest).mono ?_ ?_
  · rintro digits rest _ _ ⟨digits_ok, -⟩
    refine (answers_fraction call rest).mono ?_ ?_
    · rintro fraction rest _ _ ⟨fractionDigits, fraction_ok⟩
      refine (answers_exponent call rest).mono ?_ ?_
      · rintro exponent _ _ _ ⟨power, exponent_ok⟩
        exact ⟨_, .mk sign_ok digits_ok fraction_ok exponent_ok⟩
      · rintro _ _ _ ⟨⟨mark, exponentSign, down, mark_ok, exponentSign_ok, rfl⟩, rfl, rfl⟩
        exact ⟨.inr (.exponent sign_ok digits_ok fraction_ok mark_ok exponentSign_ok), rfl, rfl⟩
    · rintro _ _ _ ⟨rfl, rfl, rfl⟩
      exact ⟨.inr (.point sign_ok digits_ok), rfl, rfl⟩
  · rintro _ _ _ ⟨rfl, rfl, rfl⟩
    refine ⟨?_, rfl, rfl⟩
    cases sign_ok with
    | absent => exact .inl rfl
    | minus => exact .inr .sign

theorem answers_number (call : {β : Type} → N β → Runner β) (whole : List Char) :
    (number.eval call).Answers whole
      (fun text _ value => ∃ numeral, NumberText text numeral ∧ value = .number numeral.toBinary)
      (fun text contexts message =>
        (text = [] ∨ BrokenNumber text) ∧ contexts = [] ∧ message = "satisfy") := by
  refine .tryMap readNumber (.recognize ?_)
  refine (answers_numberLiteral call whole).mono ?_ (fun _ _ _ broken => broken)
  rintro text _ _ _ ⟨numeral, number_ok⟩
  exact ⟨_, readNumber_of_numberText number_ok, numeral, number_ok, rfl⟩

def NumberEnds (next : Option Char) : Prop :=
  ∀ c, next = some c → c.isDigit = false ∧ c ∉ ['.', 'e', 'E']

theorem NumberEnds.noDigit (ends : NumberEnds next) : NoDigit next :=
  fun c head => (ends c head).1

theorem reads_sign {sign : List Char} {negative : Bool} (sign_ok : SignText sign negative)
    (other : next ≠ some '-') :
    ∃ output, ((Parser.optional (Parser.char '-')).eval call).Reads sign next output := by
  cases sign_ok with
  | absent => exact ⟨none, .optional_none (breaks_char _ other)⟩
  | minus => exact ⟨some '-', (reads_char _ '-' next).optional⟩

theorem reads_fraction {digits : List Char} (fraction_ok : FractionText text digits)
    (stopped : NoDigit next) (no_point : next ≠ some '.') :
    ∃ output, ((Parser.optional fraction).eval call).Reads text next output := by
  cases fraction_ok with
  | absent => exact ⟨none, .optional_none ((breaks_char _ no_point).seqRight_left _)⟩
  | present digits_ok =>
    exact ⟨_, ((reads_char _ '.' _).seqRight (reads_digits _ digits_ok stopped)).optional⟩

theorem reads_exponentSign {sign : List Char} {negative : Bool}
    (sign_ok : ExponentSignText sign negative) (other : ∀ c, next = some c → c ∉ ['+', '-']) :
    ∃ output, ((Parser.optional (Parser.oneOf "+-")).eval call).Reads sign next output := by
  cases sign_ok with
  | absent =>
    refine ⟨none, .optional_none (breaks_satisfy fun c head => ?_)⟩
    exact Bool.eq_false_iff.mpr (mt (contains_signs c).mp (other c head))
  | plus => exact ⟨some '+', (reads_satisfy (by decide) next).optional⟩
  | minus => exact ⟨some '-', (reads_satisfy (by decide) next).optional⟩

theorem reads_exponent {power : Int} (exponent_ok : ExponentText text power)
    (ends : NumberEnds next) :
    ∃ output, ((Parser.optional exponent).eval call).Reads text next output := by
  cases exponent_ok with
  | absent =>
    refine ⟨none, .optional_none (.seqRight_left (.seqRight_left (breaks_satisfy ?_) _) _)⟩
    intro c head
    have other := (ends c head).2
    refine Bool.eq_false_iff.mpr (mt (contains_marks c).mp ?_)
    exact fun member => other (List.mem_cons_of_mem '.' member)
  | @present mark sign digits negative mark_ok sign_ok digits_ok =>
    have no_sign : ∀ c, digits.head?.or next = some c → c ∉ ['+', '-'] := by
      intro c head member
      simp only [List.mem_cons, List.not_mem_nil, or_false] at member
      rcases member with rfl | rfl <;> exact digits_ok.head_ne (by decide) next head
    obtain ⟨output, read⟩ := reads_exponentSign call sign_ok no_sign
    have marked := reads_satisfy ((contains_marks mark).mpr mark_ok)
      (sign.head?.or (digits.head?.or next))
    exact ⟨_, ((marked.seqRight read).seqRight (reads_digits _ digits_ok ends.noDigit)).optional⟩

theorem reads_number {numeral : Numeral} (number_ok : NumberText text numeral)
    (ends : NumberEnds next) :
    (number.eval call).Reads text next (.number numeral.toBinary) := by
  have accepted := readNumber_of_numberText number_ok
  obtain @⟨sign, whole, fraction, digits, exponent, negative, power, sign_ok, whole_ok,
    fraction_ok, exponent_ok⟩ := number_ok
  have ended : NoDigit (exponent.head?.or next) := exponent_ok.noDigit ends.noDigit
  have no_point : exponent.head?.or next ≠ some '.' :=
    exponent_ok.no_point fun head => (ends '.' head).2 List.mem_cons_self
  have no_minus : whole.head?.or (fraction.head?.or (exponent.head?.or next)) ≠ some '-' :=
    whole_ok.head_ne (by decide) _
  obtain ⟨_, signed⟩ := reads_sign call sign_ok no_minus
  obtain ⟨_, pointed⟩ := reads_fraction call fraction_ok ended no_point
  obtain ⟨_, raised⟩ := reads_exponent call exponent_ok ends
  have counted := reads_digits call whole_ok (fraction_ok.noDigit ended)
  exact (((signed.seqRight counted).seqRight pointed).seqRight raised).recognize.tryMap accepted

end Grammar

end CombinatorJson
