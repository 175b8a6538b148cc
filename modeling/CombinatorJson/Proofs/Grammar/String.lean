import CombinatorJson.Proofs.Grammar.Token

set_option autoImplicit false

namespace CombinatorJson

namespace Grammar

open CombinatorJson.Parser CombinatorJson.Runner

variable {N : Type → Type} (call : {β : Type} → N β → Runner β)
variable {whole text : List Char} {next : Option Char}

theorem meaning_units (units : List Nat) :
    meaning (units.map .unit) = Utf16.decode units := by
  fun_induction Utf16.decode units with
  | case1 => rfl
  | case2 unit => rfl
  | case3 first second rest paired ih => simp [meaning, paired, ih]
  | case4 first second rest single ih =>
    rw [List.map_cons] at ih
    simp [meaning, single, ih]

theorem meaning_units_char (units : List Nat) (c : Char) (rest : List Fragment) :
    meaning (units.map .unit ++ .char c :: rest) = Utf16.decode units ++ c :: meaning rest := by
  fun_induction Utf16.decode units with
  | case1 => rfl
  | case2 unit => rfl
  | case3 first second rest' paired ih => simp [meaning, paired, ih]
  | case4 first second rest' single ih =>
    rw [List.map_cons, List.cons_append] at ih
    simp [meaning, single, ih]

theorem assembleFrom_eq (units : List Nat) (pieces : List Fragment) :
    assembleFrom units pieces = meaning (units.reverse.map .unit ++ pieces) := by
  -- The run of units that was held back stands before the pieces that are left.
  induction pieces generalizing units with
  | nil => rw [assembleFrom, List.append_nil, meaning_units]
  | cons piece pieces ih =>
    cases piece with
    | char c =>
      rw [assembleFrom, ih, meaning_units_char]
      rfl
    | unit value => simp [assembleFrom, ih]

theorem assemble_eq (pieces : List Fragment) :
    assemble pieces = String.ofList (meaning pieces) := by
  simp [assemble, assembleFrom_eq]

theorem mem_simpleEscapes {c meant : Char} (escape : (c, meant) ∈ simpleEscapes) :
    "\"\\/bfnrt".toList.contains c = true ∧ unescape c = meant := by
  simp only [simpleEscapes, List.mem_cons, Prod.mk.injEq, List.not_mem_nil, or_false] at escape
  rcases escape with ⟨rfl, rfl⟩ | ⟨rfl, rfl⟩ | ⟨rfl, rfl⟩ | ⟨rfl, rfl⟩ | ⟨rfl, rfl⟩ | ⟨rfl, rfl⟩ |
    ⟨rfl, rfl⟩ | ⟨rfl, rfl⟩ <;> decide

theorem simpleEscapes_of_contains {c : Char} (known : "\"\\/bfnrt".toList.contains c = true) :
    (c, unescape c) ∈ simpleEscapes := by
  have member : c ∈ ['"', '\\', '/', 'b', 'f', 'n', 'r', 't'] := by simpa using known
  simp only [List.mem_cons, List.not_mem_nil, or_false] at member
  rcases member with rfl | rfl | rfl | rfl | rfl | rfl | rfl | rfl <;> decide

theorem hexDigits_ascii :
    ∀ code < 128, isHexDigit (Char.ofNat code) = true →
      (Char.ofNat code, hexValue (Char.ofNat code)) ∈ hexDigits := by
  decide

theorem toNat_lt_of_isHexDigit {c : Char} (hex : isHexDigit c = true) : c.toNat < 128 := by
  simp only [isHexDigit, Char.isDigit, Bool.or_eq_true, Bool.and_eq_true, decide_eq_true_eq,
    Char.le_def, UInt32.le_iff_toNat_le] at hex
  have upper : ('9' : Char).val.toNat = 57 ∧ ('f' : Char).val.toNat = 102 ∧
    ('F' : Char).val.toNat = 70 := by decide
  change c.val.toNat < 128
  omega

theorem hexDigits_of_isHexDigit {c : Char} (hex : isHexDigit c = true) :
    (c, hexValue c) ∈ hexDigits := by
  have small := hexDigits_ascii c.toNat (toNat_lt_of_isHexDigit hex)
  rw [Char.ofNat_toNat] at small
  exact small hex

theorem isHexDigit_of_mem {c : Char} {value : Nat} (member : (c, value) ∈ hexDigits) :
    isHexDigit c = true ∧ hexValue c = value := by
  have table : ∀ entry ∈ hexDigits, isHexDigit entry.1 = true ∧ hexValue entry.1 = entry.2 := by
    decide
  exact table _ member

theorem PiecesText.append {left right : List Char} {first second : List Fragment}
    (left_ok : PiecesText left first) (right_ok : PiecesText right second) :
    PiecesText (left ++ right) (first ++ second) := by
  induction left_ok with
  | nil => exact right_ok
  | cons piece_ok _ ih =>
    rw [List.append_assoc, List.cons_append]
    exact .cons piece_ok ih

theorem PiecesText.snoc {body : List Char} {pieces : List Fragment} {piece : Fragment}
    (pieces_ok : PiecesText body pieces) (piece_ok : PieceText text piece) :
    PiecesText (body ++ text) (pieces ++ [piece]) := by
  have single := PiecesText.cons piece_ok .nil
  rw [List.append_nil] at single
  exact pieces_ok.append single

theorem breaks_plainChar (special : ∀ c, next = some c → c = '"' ∨ c = '\\') :
    (plainChar.eval call).Breaks [] next [] "satisfy" := by
  refine .map _ (breaks_satisfy fun c head => ?_)
  rcases special c head with rfl | rfl <;> decide

theorem reads_hexDigits {a b c d : Char} {i j k l : Nat} (first : (a, i) ∈ hexDigits)
    (second : (b, j) ∈ hexDigits) (third : (c, k) ∈ hexDigits) (fourth : (d, l) ∈ hexDigits) :
    (Runner.count 4 (Runner.satisfy isHexDigit)).Reads [a, b, c, d] next [a, b, c, d] := by
  have accepted : ∀ digit ∈ [a, b, c, d], isHexDigit digit = true := by
    simp [isHexDigit_of_mem first, isHexDigit_of_mem second, isHexDigit_of_mem third,
      isHexDigit_of_mem fourth]
  exact (chain_satisfy accepted next).reads_count

theorem hexNumber_of_mem {a b c d : Char} {i j k l : Nat} (first : (a, i) ∈ hexDigits)
    (second : (b, j) ∈ hexDigits) (third : (c, k) ∈ hexDigits) (fourth : (d, l) ∈ hexDigits) :
    hexNumber [a, b, c, d] = 4096 * i + 256 * j + 16 * k + l := by
  simp only [hexNumber, List.foldl_cons, List.foldl_nil, isHexDigit_of_mem first,
    isHexDigit_of_mem second, isHexDigit_of_mem third, isHexDigit_of_mem fourth]
  omega

theorem reads_piece {piece : Fragment} (piece_ok : PieceText text piece) :
    ((Parser.orElse plainChar escape).eval call).Reads text next piece := by
  have backslash : ∀ (rest : List Char) (c : Char),
      ('\\' :: rest).head?.or next = some c → c = '"' ∨ c = '\\' := by
    rintro rest c ⟨⟩
    exact .inr rfl
  have begun (rest : List Char) := reads_char call '\\' (rest.head?.or next)
  cases piece_ok with
  | @plain c no_quote no_backslash =>
    exact .orElse_left (.map Fragment.char (reads_satisfy (by simp [no_quote, no_backslash]) next)) _
  | @simple c meant escape =>
    obtain ⟨known, rfl⟩ := mem_simpleEscapes escape
    have escaped := (reads_satisfy known next).map fun c => Fragment.char (unescape c)
    exact .orElse_right (breaks_plainChar _ (backslash [c]))
      ((begun [c]).seqRight (escaped.orElse_left _))
  | @unicode a b c d i j k l first second third fourth =>
    have u := reads_char call 'u' ([a, b, c, d].head?.or next)
    have unit := (u.seqRight (reads_hexDigits first second third fourth)).map
      fun digits => Fragment.unit (hexNumber digits)
    rw [hexNumber_of_mem first second third fourth] at unit
    have no_simple : (simpleEscape.eval call).Breaks [] ((['u'] ++ [a, b, c, d]).head?.or next) []
        "satisfy" := by
      refine .map _ (breaks_satisfy ?_)
      rintro _ ⟨⟩
      decide
    exact .orElse_right (breaks_plainChar _ (backslash _)) ((begun _).seqRight (.orElse_right no_simple unit))

theorem PieceText.nonempty {piece : Fragment} (piece_ok : PieceText text piece) : text ≠ [] := by
  cases piece_ok <;> simp

theorem chain_pieces {pieces : List Fragment} (pieces_ok : PiecesText text pieces)
    (next : Option Char) :
    Chain ((Parser.orElse plainChar escape).eval call) text next pieces := by
  induction pieces_ok with
  | nil => exact .nil
  | cons piece_ok _ ih => exact .cons (reads_piece _ piece_ok) piece_ok.nonempty ih

theorem breaks_piece (ended : ∀ c, next = some c → c = '"') :
    ((Parser.orElse plainChar escape).eval call).Breaks [] next [] "satisfy" := by
  refine .orElse_right (breaks_plainChar _ fun c head => .inl (ended c head)) ?_
  refine .seqRight_left (breaks_satisfy ?_) _
  rintro c head
  rw [ended c head]
  decide

theorem reads_stringLiteral {value : String} (string_ok : StringText text value)
    (next : Option Char) :
    (stringLiteral.eval call).Reads text next value := by
  obtain ⟨pieces_ok⟩ := string_ok
  have body := (chain_pieces call pieces_ok (some '"')).reads_collectFrom
    (breaks_piece call (by rintro _ ⟨⟩; rfl)) []
  have opened := (reads_char call '"' _).seqRight body
  have literal := (opened.zip_char (reads_char call '"' next)).map Prod.fst
  rw [← assemble_eq]
  exact literal.map assemble

theorem answers_plainChar (call : {β : Type} → N β → Runner β) (whole : List Char) :
    (plainChar.eval call).Answers whole (fun text _ piece => PieceText text piece)
      (fun text contexts message => text = [] ∧ contexts = [] ∧ message = "satisfy") := by
  refine .map Fragment.char (answers_satisfy ?_ fun _ => ⟨rfl, rfl, rfl⟩)
  intro c _ _ accepted
  have plain : c ≠ '"' ∧ c ≠ '\\' := by simpa using accepted
  exact .plain plain.1 plain.2

theorem answers_simpleEscape (call : {β : Type} → N β → Runner β) (whole : List Char) :
    (simpleEscape.eval call).Answers whole (fun text _ piece => PieceText ('\\' :: text) piece)
      (fun text contexts message => text = [] ∧ contexts = [] ∧ message = "satisfy") := by
  refine .map (fun c => Fragment.char (unescape c)) (answers_satisfy ?_ fun _ => ⟨rfl, rfl, rfl⟩)
  exact fun c _ _ known => .simple (simpleEscapes_of_contains known)

def AllHex (text : List Char) : Prop :=
  ∀ c ∈ text, ∃ value, (c, value) ∈ hexDigits

theorem answers_hexDigits (whole : List Char) :
    (Runner.count 4 (Runner.satisfy isHexDigit)).Answers whole
      (fun text _ digits => text = digits ∧ digits.length = 4 ∧ AllHex digits)
      (fun text contexts message =>
        AllHex text ∧ text.length < 4 ∧ contexts = [] ∧ message = "satisfy") := by
  refine answers_count 4 (fun text items => text = items ∧ AllHex items) ⟨rfl, by simp [AllHex]⟩ ?_
    fun _ _ _ four held => ⟨held.1, four, held.2⟩
  rintro text rest items few - ⟨rfl, hex⟩
  refine answers_satisfy ?_ fun _ => by simpa using ⟨hex, few⟩
  intro c _ _ accepted
  refine ⟨List.cons_ne_nil c [], rfl, ?_⟩
  have last : AllHex [c] := by simpa [AllHex] using ⟨_, hexDigits_of_isHexDigit accepted⟩
  exact fun d member => (List.mem_append.mp member).elim (hex d) (last d)

theorem pieceText_unicode {digits : List Char} (four : digits.length = 4) (hex : AllHex digits) :
    PieceText ('\\' :: 'u' :: digits) (.unit (hexNumber digits)) := by
  match digits, four with
  | [a, b, c, d], _ =>
    obtain ⟨i, first⟩ := hex a (by simp)
    obtain ⟨j, second⟩ := hex b (by simp)
    obtain ⟨k, third⟩ := hex c (by simp)
    obtain ⟨l, fourth⟩ := hex d (by simp)
    rw [hexNumber_of_mem first second third fourth]
    exact .unicode first second third fourth

theorem answers_unicodeEscape (call : {β : Type} → N β → Runner β) (whole : List Char) :
    (unicodeEscape.eval call).Answers whole (fun text _ piece => PieceText ('\\' :: text) piece)
      (fun text contexts message =>
        (text = [] ∨ ∃ digits, text = 'u' :: digits ∧ AllHex digits ∧ digits.length < 4) ∧
          contexts = [] ∧ message = "satisfy") := by
  refine .map _ (.seqRight (answers_satisfy ?_ fun _ => ⟨.inl rfl, rfl, rfl⟩))
  intro u rest _ accepted
  obtain rfl : u = 'u' := by simpa using accepted
  apply (answers_hexDigits rest).mono
  · rintro _ _ digits _ ⟨rfl, four, hex⟩
    exact pieceText_unicode four hex
  · rintro digits _ _ ⟨hex, few, rfl, rfl⟩
    exact ⟨.inr ⟨digits, rfl, hex, few⟩, rfl, rfl⟩

theorem answers_piece (call : {β : Type} → N β → Runner β) (whole : List Char) :
    ((Parser.orElse plainChar escape).eval call).Answers whole
      (fun text _ piece => PieceText text piece)
      (fun text contexts message => (text = [] ∨ text = ['\\'] ∨
        ∃ digits, text = '\\' :: 'u' :: digits ∧ AllHex digits ∧ digits.length < 4) ∧
          contexts = [] ∧ message = "satisfy") := by
  refine .orElse ((answers_plainChar call whole).mono (fun _ _ _ _ plain => plain) ?_)
  rintro _ _ _ ⟨rfl, -, -⟩
  refine ⟨fun _ => ?_, fun moved => absurd rfl moved⟩
  refine .seqRight (answers_satisfy ?_ fun _ => ⟨.inl rfl, rfl, rfl⟩)
  intro backslash rest _ accepted
  obtain rfl : backslash = '\\' := by simpa using accepted
  -- The backslash is passed: an escape that does not begin leaves it broken.
  refine .orElse ((answers_simpleEscape call rest).mono (fun _ _ _ _ simple => simple) ?_)
  rintro _ _ _ ⟨rfl, -, -⟩
  refine ⟨fun _ => ?_, fun moved => absurd rfl moved⟩
  apply (answers_unicodeEscape call rest).mono
  · exact fun _ _ _ _ unicode => unicode
  · rintro _ _ _ ⟨rfl | ⟨digits, rfl, hex, few⟩, rfl, rfl⟩
    · exact ⟨.inr (.inl rfl), rfl, rfl⟩
    · exact ⟨.inr (.inr ⟨digits, rfl, hex, few⟩), rfl, rfl⟩

theorem answers_stringLiteral (call : {β : Type} → N β → Runner β) (whole : List Char) :
    (stringLiteral.eval call).Answers whole (fun text _ value => StringText text value)
      (fun text contexts message =>
        (text = [] ∨ BrokenString text) ∧ contexts = [] ∧ message = "satisfy") := by
  refine .map assemble (.seqLeft (.seqRight (answers_satisfy ?_ fun _ => ⟨.inl rfl, rfl, rfl⟩)))
  intro quote rest _ accepted
  obtain rfl : quote = '"' := by simpa using accepted
  -- Every round leaves the pieces so far; the round that fails at its start meets the closing quote.
  refine answers_many PiecesText .nil ?_
  intro body rest pieces _ pieces_ok
  refine (answers_piece call rest).mono ?_ ?_
  · exact fun _ _ _ _ piece_ok => ⟨piece_ok.nonempty, pieces_ok.snoc piece_ok⟩
  rintro _ _ _ ⟨rfl | rfl | ⟨digits, rfl, digits_ok, few⟩, rfl, rfl⟩
  · refine ⟨fun _ => ?_, fun moved => absurd rfl moved⟩
    refine answers_satisfy ?_ fun _ => ⟨.inr (by simpa using .body pieces_ok), rfl, rfl⟩
    intro quote _ _ accepted
    obtain rfl : quote = '"' := by simpa using accepted
    rw [assemble_eq]
    exact .mk pieces_ok
  · exact ⟨fun same => absurd same (by simp), fun _ => ⟨.inr (.escape pieces_ok), rfl, rfl⟩⟩
  · exact ⟨fun same => absurd same (by simp),
      fun _ => ⟨.inr (.unicode pieces_ok digits_ok few), rfl, rfl⟩⟩

end Grammar

end CombinatorJson
