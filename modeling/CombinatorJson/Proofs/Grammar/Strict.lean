import CombinatorJson.Proofs.Grammar.Document
import CombinatorJson.Proofs.Grammar.Scan

set_option autoImplicit false

namespace CombinatorJson

namespace Grammar

def StrictWhole (text : List Char) : Prop :=
  Digits text ∧ (text.head? = some '0' → text = ['0'])

inductive StrictNumber : List Char → Prop where
  | mk {sign whole fraction fractionDigits exponent : List Char} {negative : Bool} {power : Int}
      (sign_ok : SignText sign negative) (whole_ok : StrictWhole whole)
      (fraction_ok : FractionText fraction fractionDigits)
      (exponent_ok : ExponentText exponent power) :
      StrictNumber (sign ++ whole ++ fraction ++ exponent)

inductive StrictPiece : List Char → Prop where
  | plain {c : Char} (visible : 0x20 ≤ c.toNat) (no_quote : c ≠ '"') (no_backslash : c ≠ '\\') :
      StrictPiece [c]
  | simple {c meant : Char} (escape : (c, meant) ∈ simpleEscapes) : StrictPiece ['\\', c]
  | unicode {digits : List Char} (four : digits.length = 4) (hex : AllHex digits) :
      StrictPiece ('\\' :: 'u' :: digits)

inductive StrictString : List Char → Prop where
  | mk {pieces : List (List Char)} (pieces_ok : ∀ piece ∈ pieces, StrictPiece piece) :
      StrictString ('"' :: (pieces.flatten ++ ['"']))

/-- A part of a text, with what stands before it and after it up to the next token. -/
structure Padded where
  before : List Char
  body : List Char
  after : List Char

namespace Padded

def text (padded : Padded) : List Char :=
  padded.before ++ padded.body ++ padded.after

def Within (space : List Char → Prop) (padded : Padded) : Prop :=
  space padded.before ∧ space padded.after

end Padded

def memberText (member : Padded × Padded) : List Char :=
  member.1.text ++ ':' :: member.2.text

inductive StrictValue (space : List Char → Prop) : List Char → Prop where
  | null : StrictValue space "null".toList
  | true : StrictValue space "true".toList
  | false : StrictValue space "false".toList
  | number {text : List Char} (number_ok : StrictNumber text) : StrictValue space text
  | string {text : List Char} (string_ok : StrictString text) : StrictValue space text
  | emptyArray {gap : List Char} (gap_ok : space gap) : StrictValue space ('[' :: (gap ++ [']']))
  | array {items : List Padded} (nonempty : items ≠ [])
      (spaces_ok : ∀ item ∈ items, item.Within space)
      (items_ok : ∀ item ∈ items, StrictValue space item.body) :
      StrictValue space ('[' :: ([','].intercalate (items.map Padded.text) ++ [']']))
  | emptyObject {gap : List Char} (gap_ok : space gap) : StrictValue space ('{' :: (gap ++ ['}']))
  | object {members : List (Padded × Padded)} (nonempty : members ≠ [])
      (spaces_ok : ∀ member ∈ members, member.1.Within space ∧ member.2.Within space)
      (keys_ok : ∀ member ∈ members, StrictString member.1.body)
      (values_ok : ∀ member ∈ members, StrictValue space member.2.body) :
      StrictValue space ('{' :: ([','].intercalate (members.map memberText) ++ ['}']))

def StrictDocument (space : List Char → Prop) (text : List Char) : Prop :=
  ∃ padded : Padded, text = padded.text ∧ padded.Within space ∧ StrictValue space padded.body

section

variable {p : Char → Prop} {text : List Char}

theorem forall_mem_intercalate {separator : List Char} {parts : List (List Char)}
    (separator_ok : ∀ c ∈ separator, p c) (parts_ok : ∀ part ∈ parts, ∀ c ∈ part, p c) :
    ∀ c ∈ separator.intercalate parts, p c := by
  induction parts with
  | nil => simp
  | cons first rest ih =>
    obtain ⟨here, later⟩ := List.forall_mem_cons.mp parts_ok
    cases rest with
    | nil => simpa using here
    | cons second rest =>
      simp only [List.intercalate_cons_cons, List.forall_mem_append]
      exact ⟨⟨here, separator_ok⟩, ih later⟩

theorem StrictNumber.numberText (number_ok : StrictNumber text) :
    ∃ numeral, NumberText text numeral := by
  obtain ⟨sign_ok, whole_ok, fraction_ok, exponent_ok⟩ := number_ok
  exact ⟨_, .mk sign_ok whole_ok.1 fraction_ok exponent_ok⟩

theorem StrictNumber.visible (number_ok : StrictNumber text) : ∀ c ∈ text, 0x20 ≤ c.toNat := by
  obtain ⟨numeral, lax_ok⟩ := number_ok.numberText
  intro c known
  have marks : ∀ d ∈ numberMarks, 0x20 ≤ d.toNat := by simp [numberMarks]
  rcases lax_ok.chars c known with digit | mark
  · have first : ('0' : Char).toNat = 0x30 := by rfl
    rw [Char.isDigit_iff_toNat] at digit
    omega
  · exact marks c mark

theorem StrictPiece.visible (piece_ok : StrictPiece text) : ∀ c ∈ text, 0x20 ≤ c.toNat := by
  cases piece_ok with
  | plain visible => simpa using visible
  | @simple c _ escape =>
    have escapes : ∀ entry ∈ simpleEscapes, 0x20 ≤ entry.1.toNat := by decide
    simpa using escapes _ escape
  | @unicode digits _ hex =>
    have table : ∀ entry ∈ hexDigits, 0x20 ≤ entry.1.toNat := by decide
    have digits_ok : ∀ c ∈ digits, 0x20 ≤ c.toNat := by
      intro c known
      obtain ⟨value, listed⟩ := hex c known
      exact table _ listed
    simpa using digits_ok

theorem StrictString.visible (string_ok : StrictString text) : ∀ c ∈ text, 0x20 ≤ c.toNat := by
  obtain ⟨pieces_ok⟩ := string_ok
  intro c known
  simp only [List.mem_cons, List.mem_append, List.mem_flatten, List.not_mem_nil, or_false] at known
  rcases known with rfl | ⟨piece, listed, inside⟩ | rfl
  · decide
  · exact (pieces_ok piece listed).visible c inside
  · decide

variable {space : List Char → Prop}

theorem Padded.forall_mem (spaces : ∀ gap, space gap → ∀ c ∈ gap, p c) {padded : Padded}
    (within : padded.Within space) (body_ok : ∀ c ∈ padded.body, p c) :
    ∀ c ∈ padded.text, p c := by
  simp only [Padded.text, List.forall_mem_append]
  exact ⟨⟨spaces _ within.1, body_ok⟩, spaces _ within.2⟩

theorem StrictValue.forall_mem (spaces : ∀ gap, space gap → ∀ c ∈ gap, p c)
    (visible : ∀ c : Char, 0x20 ≤ c.toNat → p c) (value_ok : StrictValue space text) :
    ∀ c ∈ text, p c := by
  have token {token : List Char} (shown : ∀ c ∈ token, 0x20 ≤ c.toNat) : ∀ c ∈ token, p c :=
    fun c known => visible c (shown c known)
  have enclosed {opening closing : Char} {body : List Char}
      (brackets : 0x20 ≤ opening.toNat ∧ 0x20 ≤ closing.toNat) (body_ok : ∀ c ∈ body, p c) :
      ∀ c ∈ opening :: (body ++ [closing]), p c := by
    simp only [List.forall_mem_cons, List.forall_mem_append]
    exact ⟨visible _ brackets.1, body_ok, visible _ brackets.2, by simp⟩
  have comma : ∀ c ∈ [','], p c := token (by simp)
  induction value_ok with
  | null | true | false => exact token (by simp)
  | number number_ok => exact token number_ok.visible
  | string string_ok => exact token string_ok.visible
  | emptyArray gap_ok | emptyObject gap_ok => exact enclosed (by decide) (spaces _ gap_ok)
  | array _ spaces_ok _ ih =>
    refine enclosed (by decide) (forall_mem_intercalate comma (List.forall_mem_map.mpr ?_))
    intro item known
    exact Padded.forall_mem spaces (spaces_ok item known) (ih item known)
  | object _ spaces_ok keys_ok _ ih =>
    refine enclosed (by decide) (forall_mem_intercalate comma (List.forall_mem_map.mpr ?_))
    intro member known
    have key_ok := Padded.forall_mem spaces (spaces_ok member known).1
      (token (keys_ok member known).visible)
    have value_ok := Padded.forall_mem spaces (spaces_ok member known).2 (ih member known)
    simp only [memberText, List.forall_mem_append, List.forall_mem_cons]
    exact ⟨key_ok, visible _ (by decide), value_ok⟩

theorem StrictDocument.forall_mem (spaces : ∀ gap, space gap → ∀ c ∈ gap, p c)
    (visible : ∀ c : Char, 0x20 ≤ c.toNat → p c) (document_ok : StrictDocument space text) :
    ∀ c ∈ text, p c := by
  obtain ⟨padded, rfl, within, value_ok⟩ := document_ok
  exact Padded.forall_mem spaces within (value_ok.forall_mem spaces visible)

end

section

variable {text : List Char}

theorem StrictPiece.pieceText (piece_ok : StrictPiece text) : ∃ piece, PieceText text piece := by
  cases piece_ok with
  | plain _ no_quote no_backslash => exact ⟨_, .plain no_quote no_backslash⟩
  | simple escape => exact ⟨_, .simple escape⟩
  | unicode four hex => exact ⟨_, pieceText_unicode four hex⟩

theorem StrictString.stringText (string_ok : StrictString text) :
    ∃ value, StringText text value := by
  obtain @⟨pieces, pieces_ok⟩ := string_ok
  have body_ok : ∃ fragments, PiecesText pieces.flatten fragments := by
    induction pieces with
    | nil => exact ⟨[], .nil⟩
    | cons first rest ih =>
      obtain ⟨here, later⟩ := List.forall_mem_cons.mp pieces_ok
      obtain ⟨piece, piece_ok⟩ := here.pieceText
      obtain ⟨fragments, rest_ok⟩ := ih later
      exact ⟨piece :: fragments, .cons piece_ok rest_ok⟩
  obtain ⟨fragments, fragments_ok⟩ := body_ok
  exact ⟨_, .mk fragments_ok⟩

theorem exists_separated {α β : Type} {whole front core : β → List Char}
    {part : List Char → α → Prop} (split : ∀ x, whole x = front x ++ core x) (first : β)
    (others : List β) (spaces_ok : ∀ x ∈ first :: others, IsWhitespace (front x))
    (parts_ok : ∀ x ∈ first :: others, ∃ value, part (core x) value) :
    ∃ body values, Separated part body values ∧
      [','].intercalate ((first :: others).map whole) = front first ++ body := by
  -- The white space before a part belongs to the comma or the bracket before it.
  obtain ⟨value, part_ok⟩ := parts_ok first List.mem_cons_self
  induction others generalizing first value with
  | nil => exact ⟨core first, [value], .last part_ok, by simp [split]⟩
  | cons second others ih =>
    have spaces_later := (List.forall_mem_cons.mp spaces_ok).2
    have parts_later := (List.forall_mem_cons.mp parts_ok).2
    obtain ⟨other, other_ok⟩ := parts_later second List.mem_cons_self
    obtain ⟨body, values, body_ok, joined⟩ := ih second spaces_later parts_later other other_ok
    have space_ok := spaces_later second List.mem_cons_self
    refine ⟨_, _, .more part_ok space_ok body_ok, ?_⟩
    rw [List.map_cons] at joined
    simp [List.intercalate_cons_cons, joined, split first]

theorem StrictValue.valueText (value_ok : StrictValue IsWhitespace text) :
    ∃ value, ValueText text value := by
  induction value_ok with
  | null => exact ⟨_, .null⟩
  | true => exact ⟨_, .true⟩
  | false => exact ⟨_, .false⟩
  | number number_ok =>
    obtain ⟨numeral, lax_ok⟩ := number_ok.numberText
    exact ⟨_, .number lax_ok⟩
  | string string_ok =>
    obtain ⟨value, lax_ok⟩ := string_ok.stringText
    exact ⟨_, .string lax_ok⟩
  | emptyArray gap_ok => exact ⟨_, .emptyArray gap_ok⟩
  | emptyObject gap_ok => exact ⟨_, .emptyObject gap_ok⟩
  | @array items nonempty spaces_ok _ ih =>
    obtain ⟨first, others, rfl⟩ := List.exists_cons_of_ne_nil nonempty
    have items_ok (item) (known : item ∈ first :: others) :
        ∃ value, ItemText (item.body ++ item.after) value := by
      obtain ⟨value, value_ok⟩ := ih item known
      exact ⟨value, .mk value_ok (spaces_ok item known).2⟩
    have split (item : Padded) : item.text = item.before ++ (item.body ++ item.after) := by
      simp [Padded.text]
    obtain ⟨body, values, body_ok, joined⟩ := exists_separated split first others
      (fun item known => (spaces_ok item known).1) items_ok
    rw [joined]
    have space_ok := (spaces_ok first List.mem_cons_self).1
    exact ⟨_, .array space_ok (itemsText_of_separated body_ok)⟩
  | @object members nonempty spaces_ok keys_ok _ ih =>
    obtain ⟨first, others, rfl⟩ := List.exists_cons_of_ne_nil nonempty
    have pairs_ok (member) (known : member ∈ first :: others) :
        ∃ pair, PairText (member.1.body ++ member.1.after ++
          ':' :: (member.2.before ++ (member.2.body ++ member.2.after))) pair := by
      obtain ⟨key, key_ok⟩ := (keys_ok member known).stringText
      obtain ⟨value, value_ok⟩ := ih member known
      obtain ⟨⟨_, after_key⟩, before, after⟩ := spaces_ok member known
      exact ⟨(key, value), .mk key_ok after_key before (.mk value_ok after)⟩
    have split (member : Padded × Padded) : memberText member = member.1.before ++
        (member.1.body ++ member.1.after ++
          ':' :: (member.2.before ++ (member.2.body ++ member.2.after))) := by
      simp [memberText, Padded.text]
    obtain ⟨body, pairs, body_ok, joined⟩ := exists_separated split first others
      (fun member known => (spaces_ok member known).1.1) pairs_ok
    rw [joined]
    have space_ok := (spaces_ok first List.mem_cons_self).1.1
    exact ⟨_, .object space_ok (pairsText_of_separated body_ok) (Members.merges_ofPairs pairs)⟩

end

end Grammar

end CombinatorJson
