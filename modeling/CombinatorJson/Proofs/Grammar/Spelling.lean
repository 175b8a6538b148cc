import CombinatorJson.Proofs.Grammar.String

set_option autoImplicit false

namespace CombinatorJson

namespace Utf16

def encode (c : Char) : List Nat :=
  if c.toNat < 0x10000 then
    [c.toNat]
  else
    [0xd800 + (c.toNat - 0x10000) / 0x400, 0xdc00 + (c.toNat - 0x10000) % 0x400]

/-- Units are those of characters, and surrogates that have no partner next to them. -/
inductive Decodes : List Nat → List Char → Prop where
  | nil : Decodes [] []
  | char {c : Char} {units : List Nat} {chars : List Char} (rest_ok : Decodes units chars) :
      Decodes (encode c ++ units) (c :: chars)
  | high {unit : Nat} {units : List Nat} {chars : List Char}
      (surrogate : isHighSurrogate unit = true)
      (alone : ∀ next, units.head? = some next → isLowSurrogate next = false)
      (rest_ok : Decodes units chars) : Decodes (unit :: units) (replacement :: chars)
  | low {unit : Nat} {units : List Nat} {chars : List Char}
      (surrogate : isLowSurrogate unit = true) (rest_ok : Decodes units chars) :
      Decodes (unit :: units) (replacement :: chars)

theorem isHighSurrogate_iff {unit : Nat} :
    isHighSurrogate unit = true ↔ 0xd800 ≤ unit ∧ unit < 0xdc00 := by
  simp [isHighSurrogate]

theorem isLowSurrogate_iff {unit : Nat} :
    isLowSurrogate unit = true ↔ 0xdc00 ≤ unit ∧ unit < 0xe000 := by
  simp [isLowSurrogate]

theorem not_surrogate (c : Char) :
    isHighSurrogate c.toNat = false ∧ isLowSurrogate c.toNat = false := by
  have valid : c.toNat < 0xd800 ∨ 0xdfff < c.toNat ∧ c.toNat < 0x110000 := c.valid
  rw [← Bool.not_eq_true, ← Bool.not_eq_true, isHighSurrogate_iff, isLowSurrogate_iff]
  omega

theorem toNat_ofNat {code : Nat} (valid : code.isValidChar) : (Char.ofNat code).toNat = code := by
  have same : Char.ofNat code = Char.ofNatAux code valid := dif_pos valid
  rw [same]
  rfl

theorem single_toNat (c : Char) : single c.toNat = c := by
  simp [single, not_surrogate c, Char.ofNat_toNat]

theorem encode_ofNat {unit : Nat} (small : unit < 0x10000)
    (no_high : isHighSurrogate unit = false) (no_low : isLowSurrogate unit = false) :
    encode (Char.ofNat unit) = [unit] := by
  have valid : unit.isValidChar := by
    rw [← Bool.not_eq_true, isHighSurrogate_iff] at no_high
    rw [← Bool.not_eq_true, isLowSurrogate_iff] at no_low
    unfold Nat.isValidChar
    omega
  simp [encode, toNat_ofNat valid, small]

theorem encode_pair {high low : Nat} (is_high : isHighSurrogate high = true)
    (is_low : isLowSurrogate low = true) : encode (pair high low) = [high, low] := by
  rw [isHighSurrogate_iff] at is_high
  rw [isLowSurrogate_iff] at is_low
  have code : (pair high low).toNat = 0x10000 + (high - 0xd800) * 0x400 + (low - 0xdc00) := by
    apply toNat_ofNat
    unfold Nat.isValidChar
    omega
  have large : ¬(pair high low).toNat < 0x10000 := by omega
  have first : 0xd800 + ((pair high low).toNat - 0x10000) / 0x400 = high := by omega
  have second : 0xdc00 + ((pair high low).toNat - 0x10000) % 0x400 = low := by omega
  rw [encode, if_neg large, first, second]

theorem encode_cases (c : Char) :
    (encode c = [c.toNat] ∧ single c.toNat = c) ∨
      ∃ high low, encode c = [high, low] ∧ isHighSurrogate high = true ∧
        isLowSurrogate low = true ∧ pair high low = c := by
  by_cases small : c.toNat < 0x10000
  · exact .inl ⟨if_pos small, single_toNat c⟩
  · have valid : c.toNat < 0xd800 ∨ 0xdfff < c.toNat ∧ c.toNat < 0x110000 := c.valid
    refine .inr ⟨_, _, if_neg small, ?_, ?_, ?_⟩
    · rw [isHighSurrogate_iff]
      omega
    · rw [isLowSurrogate_iff]
      omega
    · have code : 0x10000 + (0xd800 + (c.toNat - 0x10000) / 0x400 - 0xd800) * 0x400 +
          (0xdc00 + (c.toNat - 0x10000) % 0x400 - 0xdc00) = c.toNat := by omega
      rw [pair, code, Char.ofNat_toNat]

theorem decode_single {unit : Nat} {units : List Nat}
    (unpaired : isHighSurrogate unit = true →
      ∀ next, units.head? = some next → isLowSurrogate next = false) :
    decode (unit :: units) = single unit :: decode units := by
  cases units with
  | nil => rfl
  | cons next units =>
    have single_ok : (isHighSurrogate unit && isLowSurrogate next) = false := by
      cases is_high : isHighSurrogate unit with
      | false => rfl
      | true => simpa using unpaired is_high next rfl
    simp [decode, single_ok]

theorem decode_encode_append (c : Char) (units : List Nat) :
    decode (encode c ++ units) = c :: decode units := by
  rcases encode_cases c with ⟨same, single_ok⟩ | ⟨high, low, same, is_high, is_low, pair_ok⟩
  · rw [same, List.singleton_append, decode_single, single_ok]
    intro is_high
    rw [(not_surrogate c).1] at is_high
    contradiction
  · simp [same, decode, is_high, is_low, pair_ok]

theorem Decodes.eq_decode {units : List Nat} {chars : List Char} (decoded : Decodes units chars) :
    chars = decode units := by
  induction decoded with
  | nil => rfl
  | @char c units chars _ ih => rw [decode_encode_append, ← ih]
  | high surrogate alone _ ih =>
    rw [decode_single fun _ => alone, ← ih]
    simp [single, surrogate]
  | @low unit units chars surrogate _ ih =>
    have no_high : isHighSurrogate unit = false := by
      rw [isLowSurrogate_iff] at surrogate
      rw [← Bool.not_eq_true, isHighSurrogate_iff]
      omega
    rw [decode_single, ← ih]
    · simp [single, surrogate]
    · simp [no_high]

theorem decodes_single {unit : Nat} {units : List Nat} {chars : List Char}
    (small : unit < 0x10000)
    (unpaired : isHighSurrogate unit = true →
      ∀ next, units.head? = some next → isLowSurrogate next = false)
    (rest_ok : Decodes units chars) : Decodes (unit :: units) (single unit :: chars) := by
  cases is_high : isHighSurrogate unit with
  | true =>
    have single_ok : single unit = replacement := by simp [single, is_high]
    rw [single_ok]
    exact .high is_high (unpaired is_high) rest_ok
  | false =>
    cases is_low : isLowSurrogate unit with
    | true =>
      have single_ok : single unit = replacement := by simp [single, is_low]
      rw [single_ok]
      exact .low is_low rest_ok
    | false =>
      have single_ok : single unit = Char.ofNat unit := by simp [single, is_high, is_low]
      have char_ok := Decodes.char (c := single unit) rest_ok
      rw [single_ok, encode_ofNat small is_high is_low] at char_ok
      rw [single_ok]
      exact char_ok

theorem decodes_decode {units : List Nat} (small : ∀ unit ∈ units, unit < 0x10000) :
    Decodes units (decode units) := by
  -- Decoding looks one unit ahead, so a unit that it leaves single has no partner there.
  fun_induction decode units with
  | case1 => exact .nil
  | case2 unit => exact decodes_single (small unit (by simp)) (by simp) .nil
  | case3 high low units paired ih =>
    rw [Bool.and_eq_true] at paired
    have rest_ok := ih fun unit known => small unit (by simp [known])
    have char_ok := Decodes.char (c := pair high low) rest_ok
    rw [encode_pair paired.1 paired.2] at char_ok
    exact char_ok
  | case4 first second units unpaired ih =>
    have rest_ok := ih fun unit known => small unit (List.mem_cons_of_mem first known)
    refine decodes_single (small first List.mem_cons_self) ?_ rest_ok
    rintro is_high next ⟨⟩
    simpa [is_high] using unpaired

end Utf16

namespace Grammar

open CombinatorJson.Parser CombinatorJson.Runner

variable {N : Type → Type} {text body : List Char} {pieces : List Fragment} {chars : List Char}

/-- Each character stands for itself, and the units between two of them are decoded together. -/
inductive Denotes : List Fragment → List Char → Prop where
  | nil : Denotes [] []
  | char {c : Char} {pieces : List Fragment} {chars : List Char} (rest_ok : Denotes pieces chars) :
      Denotes (.char c :: pieces) (c :: chars)
  | run {units : List Nat} {pieces : List Fragment} {decoded chars : List Char}
      (nonempty : units ≠ []) (maximal : ∀ unit, pieces.head? ≠ some (.unit unit))
      (units_ok : Utf16.Decodes units decoded) (rest_ok : Denotes pieces chars) :
      Denotes (units.map .unit ++ pieces) (decoded ++ chars)

theorem meaning_run {units : List Nat} (maximal : ∀ unit, pieces.head? ≠ some (.unit unit)) :
    meaning (units.map .unit ++ pieces) = Utf16.decode units ++ meaning pieces := by
  cases pieces with
  | nil => simp [meaning_units, meaning]
  | cons piece pieces =>
    cases piece with
    | char c => exact meaning_units_char units c pieces
    | unit unit => exact absurd rfl (maximal unit)

theorem Denotes.eq_meaning (denoted : Denotes pieces chars) : chars = meaning pieces := by
  induction denoted with
  | nil => rfl
  | char _ ih => rw [meaning, ← ih]
  | run _ maximal units_ok _ ih => rw [meaning_run maximal, ← units_ok.eq_decode, ← ih]

theorem denotes_run {units : List Nat} (small : ∀ unit ∈ units, unit < 0x10000)
    (maximal : ∀ unit, pieces.head? ≠ some (.unit unit)) (rest_ok : Denotes pieces chars) :
    Denotes (units.map .unit ++ pieces) (Utf16.decode units ++ chars) := by
  by_cases empty : units = []
  · subst empty
    exact rest_ok
  · exact .run empty maximal (Utf16.decodes_decode small) rest_ok

theorem denotes_meaning_run {units : List Nat} (small : ∀ unit ∈ units, unit < 0x10000)
    (pieces_small : ∀ unit, .unit unit ∈ pieces → unit < 0x10000) :
    Denotes (units.map .unit ++ pieces) (meaning (units.map .unit ++ pieces)) := by
  -- A unit that is passed joins the run before it; a character ends that run.
  induction pieces generalizing units with
  | nil =>
    rw [meaning_run (by simp)]
    exact denotes_run small (by simp) .nil
  | cons piece pieces ih =>
    have tail_small : ∀ unit, .unit unit ∈ pieces → unit < 0x10000 :=
      fun unit known => pieces_small unit (List.mem_cons_of_mem piece known)
    cases piece with
    | char c =>
      have none_before : ∀ unit ∈ ([] : List Nat), unit < 0x10000 := by simp
      have tail_ok := ih none_before tail_small
      rw [meaning_run (by simp)]
      exact denotes_run small (by simp) (.char tail_ok)
    | unit unit =>
      have joined : units.map .unit ++ .unit unit :: pieces =
          (units ++ [unit]).map .unit ++ pieces := by simp
      rw [joined]
      refine ih ?_ tail_small
      intro other known
      rcases List.mem_append.mp known with before | last
      · exact small other before
      · rw [List.mem_singleton.mp last]
        exact pieces_small unit List.mem_cons_self

theorem denotes_meaning (pieces_small : ∀ unit, .unit unit ∈ pieces → unit < 0x10000) :
    Denotes pieces (meaning pieces) := by
  have none_before : ∀ unit ∈ ([] : List Nat), unit < 0x10000 := by simp
  simpa using denotes_meaning_run none_before pieces_small

theorem PiecesText.small (pieces_ok : PiecesText body pieces) {unit : Nat}
    (known : .unit unit ∈ pieces) : unit < 0x10000 := by
  have digit_small : ∀ entry ∈ hexDigits, entry.2 < 16 := by decide
  induction pieces_ok with
  | nil => contradiction
  | cons first _ ih =>
    rcases List.mem_cons.mp known with rfl | later
    · cases first with
      | unicode i_ok j_ok k_ok l_ok =>
        have i_small := digit_small _ i_ok
        have j_small := digit_small _ j_ok
        have k_small := digit_small _ k_ok
        have l_small := digit_small _ l_ok
        dsimp only at i_small j_small k_small l_small
        omega
    · exact ih later

inductive SpellingText : List Char → List Char → Prop where
  | nil : SpellingText [] []
  | char {text more chars : List Char} {c : Char} (first : PieceText text (.char c))
      (tail : SpellingText more chars) : SpellingText (text ++ more) (c :: chars)
  | units {text more chars : List Char} {c : Char}
      (first : PiecesText text ((Utf16.encode c).map .unit)) (tail : SpellingText more chars) :
      SpellingText (text ++ more) (c :: chars)

theorem meaning_encode (c : Char) (pieces : List Fragment) :
    meaning ((Utf16.encode c).map .unit ++ pieces) = c :: meaning pieces := by
  rcases Utf16.encode_cases c with ⟨same, single_ok⟩ | ⟨high, low, same, is_high, is_low, pair_ok⟩
  · -- The unit of a character never begins a pair, whatever unit comes next.
    have no_high := (Utf16.not_surrogate c).1
    cases pieces with
    | nil => simp [same, meaning, single_ok]
    | cons piece pieces => cases piece <;> simp [same, meaning, no_high, single_ok]
  · simp [same, meaning, is_high, is_low, pair_ok]

theorem SpellingText.exists_pieces (spelled : SpellingText body chars) :
    ∃ pieces, PiecesText body pieces ∧ meaning pieces = chars := by
  induction spelled with
  | nil => exact ⟨[], .nil, rfl⟩
  | @char text more chars c first _ ih =>
    obtain ⟨pieces, pieces_ok, rfl⟩ := ih
    exact ⟨.char c :: pieces, .cons first pieces_ok, rfl⟩
  | @units text more chars c first _ ih =>
    obtain ⟨pieces, pieces_ok, rfl⟩ := ih
    exact ⟨_, first.append pieces_ok, meaning_encode c pieces⟩

theorem run_quoted (rules : {β : Type} → N β → Parser N β) (depth : Nat) {start : Cursor}
    {rest : List Char} (pieces_ok : PiecesText body pieces)
    (quoted : start.ahead = '"' :: (body ++ '"' :: rest)) :
    stringLiteral.run rules depth start =
      some (.done (start.advance (body.length + 2)) (String.ofList (meaning pieces))) := by
  obtain ⟨call, same⟩ := exists_run_eq_eval rules depth
  have reads := reads_stringLiteral call (.mk pieces_ok) rest.head?
  have ahead : start.ahead = '"' :: (body ++ ['"']) ++ rest := by simp [quoted]
  have read := reads start rest ahead rfl
  rw [same, read]
  simp

/-- A quoted literal is read whole and nothing after it is. Its pieces stand for one string, which
is the output, so every spelling of a string gives that string back. -/
theorem stringLiteral_run (rules : {β : Type} → N β → Parser N β) (depth : Nat) {start : Cursor}
    {rest : List Char} (quoted : start.ahead = '"' :: (body ++ '"' :: rest)) :
    (start.advance (body.length + 2)).ahead = rest ∧
    (∀ pieces, PiecesText body pieces →
      (∃ chars, Denotes pieces chars) ∧
      ∀ chars, Denotes pieces chars →
        stringLiteral.run rules depth start =
          some (.done (start.advance (body.length + 2)) (String.ofList chars))) ∧
    ∀ chars, SpellingText body chars →
      stringLiteral.run rules depth start =
        some (.done (start.advance (body.length + 2)) (String.ofList chars)) := by
  refine ⟨?_, ?_, ?_⟩
  · have ahead : start.ahead = '"' :: (body ++ ['"']) ++ rest := by simp [quoted]
    simpa using Cursor.ahead_advance_length ahead
  · intro pieces pieces_ok
    constructor
    · exact ⟨_, denotes_meaning fun _ => pieces_ok.small⟩
    · intro chars denoted
      rw [denoted.eq_meaning]
      exact run_quoted rules depth pieces_ok quoted
  · intro chars spelled
    obtain ⟨pieces, pieces_ok, rfl⟩ := spelled.exists_pieces
    exact run_quoted rules depth pieces_ok quoted

theorem stringLiteral_run_surrogates :
    stringLiteral.run rules 0 (.start 0 "\"\\ud83d\\uD83D\\ude00x\",".toList) =
      some (.done ((Cursor.start 0 "\"\\ud83d\\uD83D\\ude00x\",".toList).advance 21)
        "\ufffd😀x") := by
  have high : PieceText "\\ud83d".toList (.unit (4096 * 13 + 256 * 8 + 16 * 3 + 13)) :=
    .unicode (by decide) (by decide) (by decide) (by decide)
  have upper : PieceText "\\uD83D".toList (.unit (4096 * 13 + 256 * 8 + 16 * 3 + 13)) :=
    .unicode (by decide) (by decide) (by decide) (by decide)
  have low : PieceText "\\ude00".toList (.unit (4096 * 13 + 256 * 14 + 16 * 0 + 0)) :=
    .unicode (by decide) (by decide) (by decide) (by decide)
  have plain : PieceText ['x'] (.char 'x') := .plain (by decide) (by decide)
  have pieces_ok := PiecesText.cons high (.cons upper (.cons low (.cons plain .nil)))
  -- The first surrogate is not next to the low one, so it has no partner.
  have units_ok : Utf16.Decodes [0xd83d, 0xd83d, 0xde00] [Utf16.replacement, '😀'] := by
    refine .high (by decide) ?_ (.char (c := '😀') .nil)
    rintro next ⟨⟩
    decide
  have denoted := Denotes.run (by simp) (by simp) units_ok (.char (c := 'x') .nil)
  exact ((stringLiteral_run rules 0 rfl).2.1 _ pieces_ok).2 _ denoted

end Grammar

end CombinatorJson
