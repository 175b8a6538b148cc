import CombinatorJson.Proofs.Forward
import Mathlib.Algebra.GroupWithZero.Nat

set_option autoImplicit false

namespace CombinatorJson

theorem utf8ByteSize_ofList (text : List Char) :
    (String.ofList text).utf8ByteSize = utf8Length text := by
  induction text with
  | nil => simp
  | cons c rest ih => simp [String.ofList_cons, ih]

/-- The part of a text between two offsets in bytes; nothing unless both lie between characters, in
order. -/
def slice? (text : String) (first last : Nat) : Option String :=
  if valid : String.Pos.Raw.IsValid text ⟨first⟩ ∧ String.Pos.Raw.IsValid text ⟨last⟩ ∧
      first ≤ last then
    some (text.extract (text.pos ⟨first⟩ valid.1) (text.pos ⟨last⟩ valid.2.1))
  else
    none

theorem isValid_append_utf8ByteSize (front rest : String) :
    String.Pos.Raw.IsValid (front ++ rest) ⟨front.utf8ByteSize⟩ :=
  String.Pos.Raw.isValid_iff_exists_append.mpr ⟨front, rest, rfl, rfl⟩

theorem slice?_append (front middle rest : String) :
    slice? (front ++ middle ++ rest) front.utf8ByteSize (front ++ middle).utf8ByteSize =
      some middle := by
  have first : String.Pos.Raw.IsValid (front ++ middle ++ rest) ⟨front.utf8ByteSize⟩ := by
    rw [String.append_assoc]
    exact isValid_append_utf8ByteSize front (middle ++ rest)
  have last := isValid_append_utf8ByteSize (front ++ middle) rest
  have ordered : front.utf8ByteSize ≤ (front ++ middle).utf8ByteSize := by simp
  have bytes := calc
    (front ++ middle ++ rest).toByteArray.extract front.utf8ByteSize
          (front ++ middle).utf8ByteSize
      = (front.toByteArray ++ (middle.toByteArray ++ rest.toByteArray)).extract
          (front.toByteArray.size + 0) (front.toByteArray.size + middle.toByteArray.size) := by
        simp [ByteArray.append_assoc]
    _ = (middle.toByteArray ++ rest.toByteArray).extract 0 middle.toByteArray.size :=
        ByteArray.extract_append_size_add
    _ = middle.toByteArray := ByteArray.extract_append_eq_left rfl
  rw [slice?, dif_pos ⟨first, last, ordered⟩, Option.some_inj, ← String.toByteArray_inj]
  exact bytes

theorem slice?_ofList (front middle rest : List Char) :
    slice? (String.ofList (front ++ middle ++ rest)) (utf8Length front)
        (utf8Length front + utf8Length middle) = some (String.ofList middle) := by
  have sliced := slice?_append (String.ofList front) (String.ofList middle) (String.ofList rest)
  simpa only [← String.ofList_append, utf8ByteSize_ofList, utf8Length_append] using sliced

namespace Cursor

variable {start middle later place origin : Cursor}

theorem exists_between (same : later.text = start.text) (ordered : start.offset ≤ later.offset) :
    ∃ between, later.behind.reverse = start.behind.reverse ++ between ∧
      start.ahead = between ++ later.ahead := by
  obtain ⟨split, place⟩ := start.offset_eq_front
  obtain ⟨split', place'⟩ := later.offset_eq_front
  rw [split, split'] at same
  rcases List.append_eq_append_iff.mp same with ⟨back, behind, ahead⟩ | forth
  · -- The text back to `later` has no length, because the offsets are in order.
    have length := congrArg utf8Length behind
    rw [utf8Length_append] at length
    have none : utf8Length back = 0 := by omega
    obtain rfl := (utf8Length_eq_zero back).mp none
    exact ⟨[], by simpa using behind.symm, by simpa using ahead.symm⟩
  · exact forth

theorem Reaches.of_offset_le (buffer : later.buffer = start.buffer)
    (same : later.text = start.text) (ordered : start.offset ≤ later.offset) :
    start.Reaches later := by
  obtain ⟨between, behind, ahead⟩ := exists_between same ordered
  refine ⟨between.length, ext_of_parts buffer ?_ ?_⟩
  · have front := congrArg List.reverse behind
    simpa [ahead] using front
  · simp [ahead]

theorem Reaches.ahead_eq (reaches : start.Reaches later) :
    start.ahead = later.consumedSince start ++ later.ahead := by
  obtain ⟨count, rfl⟩ := reaches
  have split : start.ahead = start.ahead.take count ++ start.ahead.drop count :=
    (List.take_append_drop count start.ahead).symm
  have same : start.advance count = start.advance (start.ahead.take count).length := by
    apply ext_of_parts <;> simp
  rw [same, consumedSince_advance_length split, ahead_advance_length split]
  exact split

theorem Reaches.consumedSince_append (reaches : start.Reaches middle)
    (reaches' : middle.Reaches later) :
    later.consumedSince start = middle.consumedSince start ++ later.consumedSince middle := by
  have ends : later.consumedSince start ++ later.ahead =
      middle.consumedSince start ++ later.consumedSince middle ++ later.ahead :=
    calc later.consumedSince start ++ later.ahead
        = start.ahead := (reaches.trans reaches').ahead_eq.symm
      _ = middle.consumedSince start ++ middle.ahead := reaches.ahead_eq
      _ = middle.consumedSince start ++ (later.consumedSince middle ++ later.ahead) := by
        rw [← reaches'.ahead_eq]
      _ = middle.consumedSince start ++ later.consumedSince middle ++ later.ahead :=
        (List.append_assoc _ _ _).symm
  exact List.append_cancel_right ends

theorem consumedSince_self (start : Cursor) : start.consumedSince start = [] := by
  have same := (Reaches.refl start).ahead_eq
  simpa using same

theorem consumedSince_of_lt (before : place.offset < origin.offset) :
    place.consumedSince origin = [] := by
  have none : place.offset - origin.offset = 0 := by omega
  rw [consumedSince, none]
  cases origin.ahead <;> simp [takeBytes]

theorem consumedSince_of_buffer_ne (differs : place.buffer ≠ origin.buffer) :
    place.consumedSince origin = [] :=
  if_neg differs

def source (cursor : Cursor) : String :=
  String.ofList cursor.text

theorem source_start (buffer : Nat) (text : String) :
    (Cursor.start buffer text.toList).source = text := by
  simp [source, Cursor.text, Cursor.start]

theorem Reaches.source_eq (reaches : start.Reaches later) : later.source = start.source :=
  congrArg String.ofList reaches.text_eq

def front? (cursor : Cursor) : Option String :=
  slice? cursor.source 0 cursor.offset

def rest? (cursor : Cursor) : Option String :=
  slice? cursor.source cursor.offset cursor.source.utf8ByteSize

def sliceSince? (cursor origin : Cursor) : Option String :=
  if cursor.buffer ≠ origin.buffer ∨ cursor.offset < origin.offset then
    some ""
  else
    slice? cursor.source origin.offset cursor.offset

theorem front?_eq (cursor : Cursor) : cursor.front? = some (String.ofList cursor.behind.reverse) := by
  have sliced := slice?_ofList [] cursor.behind.reverse cursor.ahead
  simpa [front?, source, text, cursor.offset_eq] using sliced

theorem rest?_eq (cursor : Cursor) : cursor.rest? = some (String.ofList cursor.ahead) := by
  have sliced := slice?_ofList cursor.behind.reverse cursor.ahead []
  simpa [rest?, source, text, cursor.offset_eq, utf8ByteSize_ofList] using sliced

theorem utf8ByteSize_source (cursor : Cursor) :
    cursor.source.utf8ByteSize = cursor.offset + utf8Length cursor.ahead := by
  rw [source, utf8ByteSize_ofList, ← sourceLength_eq, sourceLength]

theorem atEnd_iff (cursor : Cursor) :
    cursor.atEnd = true ↔ cursor.source.utf8ByteSize ≤ cursor.offset := by
  have ended : cursor.source.utf8ByteSize ≤ cursor.offset ↔ utf8Length cursor.ahead = 0 := by
    rw [utf8ByteSize_source]
    omega
  rw [ended, utf8Length_eq_zero, atEnd, List.isEmpty_iff]

theorem offset_isValid (cursor : Cursor) :
    String.Pos.Raw.IsValid cursor.source ⟨cursor.offset⟩ := by
  have boundary := isValid_append_utf8ByteSize (String.ofList cursor.behind.reverse)
    (String.ofList cursor.ahead)
  simpa [source, text, cursor.offset_eq, utf8ByteSize_ofList] using boundary

theorem sliceSince?_of_reaches (reaches : start.Reaches later) :
    later.sliceSince? start = some (String.ofList (later.consumedSince start)) := by
  obtain ⟨between, behind, ahead⟩ := exists_between reaches.text_eq reaches.offset_le
  have passed : later.consumedSince start = between :=
    List.append_cancel_right (reaches.ahead_eq.symm.trans ahead)
  have front : start.offset = utf8Length start.behind.reverse := start.offset_eq_front.2
  have offset : later.offset = utf8Length start.behind.reverse + utf8Length between := by
    rw [later.offset_eq_front.2, behind, utf8Length_append]
  have whole : later.text = start.behind.reverse ++ between ++ later.ahead := by
    rw [text, behind]
  have inOrder : ¬(later.buffer ≠ start.buffer ∨ later.offset < start.offset) := by
    simp [reaches.buffer_eq, reaches.offset_le]
  rw [sliceSince?, if_neg inOrder, source, whole, front, offset, passed]
  exact slice?_ofList start.behind.reverse between later.ahead

def advances (counts : List Nat) (start : Cursor) : Cursor :=
  counts.foldl (fun place count => place.advance count) start

theorem advances_eq_advance (counts : List Nat) (start : Cursor) :
    start.advances counts = start.advance counts.sum := by
  induction counts generalizing start with
  | nil => exact (advance_zero start).symm
  | cons count counts ih =>
    have rest := ih (start.advance count)
    rw [advance_advance] at rest
    exact rest

theorem offset_advances_start (buffer : Nat) (text : List Char) (counts : List Nat) :
    ((Cursor.start buffer text).advances counts).offset =
      utf8Length (text.take (min counts.sum text.length)) := by
  rw [advances_eq_advance, ← List.take_eq_take_min]
  simp [advance, Cursor.start]

theorem advance_of_length_le {count : Nat} (beyond : place.ahead.length ≤ count) :
    place.advance count = place.advance place.ahead.length := by
  apply ext_of_parts
  · rfl
  · simp [List.take_of_length_le beyond]
  · simp [List.drop_of_length_le beyond]

theorem advance_min {limit : Nat} (bounded : place.ahead.length ≤ limit) (count : Nat) :
    place.advance (min count limit) = place.advance count := by
  rcases Nat.le_total count limit with within | beyond
  · rw [Nat.min_eq_left within]
  · rw [Nat.min_eq_right beyond, advance_of_length_le bounded,
      advance_of_length_le (Nat.le_trans bounded beyond)]

/-- The places to which moves over any counts lead from the start of a text. -/
def ReachedIn (buffer : Nat) (text : String) (place : Cursor) : Prop :=
  ∃ counts, place = (Cursor.start buffer text.toList).advances counts

section

variable {buffer : Nat} {text : String}

theorem ReachedIn.reaches (reached : ReachedIn buffer text place) :
    (Cursor.start buffer text.toList).Reaches place := by
  obtain ⟨counts, rfl⟩ := reached
  exact ⟨counts.sum, advances_eq_advance counts _⟩

theorem ReachedIn.source_eq (reached : ReachedIn buffer text place) : place.source = text :=
  reached.reaches.source_eq.trans (source_start buffer text)

theorem ReachedIn.reaches_of_offset_le (reached : ReachedIn buffer text place)
    (reached' : ReachedIn buffer text later) (ordered : place.offset ≤ later.offset) :
    place.Reaches later := by
  have buffers := reached'.reaches.buffer_eq.trans reached.reaches.buffer_eq.symm
  have texts := reached'.reaches.text_eq.trans reached.reaches.text_eq.symm
  exact .of_offset_le buffers texts ordered

theorem ReachedIn.sliceSince?_eq (reached : ReachedIn buffer text place)
    (reached' : ReachedIn buffer text origin) :
    place.sliceSince? origin = some (String.ofList (place.consumedSince origin)) := by
  rcases Nat.lt_or_ge place.offset origin.offset with before | ordered
  · simp [sliceSince?, before, consumedSince_of_lt before]
  · exact sliceSince?_of_reaches (reached'.reaches_of_offset_le reached ordered)

end

/-- Moves by any counts of characters lead to a place between two characters, as far into the text
as their sum, or to its end; a sum cut off at a limit leads no less far if the text ahead is within
the limit. So no slice of the text at such places fails: the text ahead and the text passed since
another place are the slices at the offsets, and texts passed in sequence lie end to end. -/
theorem advances_between_characters (buffer : Nat) (text : String) :
    (∀ counts : List Nat,
      let place := (Cursor.start buffer text.toList).advances counts
      let passed := String.ofList (text.toList.take (min counts.sum text.length))
      place.source = text ∧ place.offset = passed.utf8ByteSize ∧
        String.Pos.Raw.IsValid text ⟨place.offset⟩ ∧
        place.rest? = some (String.ofList place.ahead) ∧
        (place.atEnd = true ↔ text.utf8ByteSize ≤ place.offset)) ∧
      (∀ place, ReachedIn buffer text place → ∀ first second,
        (place.advance first).advance second = place.advance (first + second) ∧
          ∀ limit, place.ahead.length ≤ limit →
            (place.advance first).advance second = place.advance (min (first + second) limit)) ∧
      (∀ first middle last, ReachedIn buffer text first → ReachedIn buffer text middle →
        ReachedIn buffer text last → first.offset ≤ middle.offset →
          middle.offset ≤ last.offset →
            middle.consumedSince first ++ last.consumedSince middle = last.consumedSince first ∧
              last.consumedSince first ++ last.ahead = first.ahead) ∧
      (∀ place origin, ReachedIn buffer text place → ReachedIn buffer text origin →
        place.sliceSince? origin = some (String.ofList (place.consumedSince origin)) ∧
          (place.offset < origin.offset → place.consumedSince origin = [])) ∧
      ∀ place origin : Cursor, place.buffer ≠ origin.buffer →
        place.sliceSince? origin = some "" ∧ place.consumedSince origin = [] := by
  refine ⟨?_, ?_, ?_, ?_, ?_⟩
  · intro counts place passed
    have reached : ReachedIn buffer text place := ⟨counts, rfl⟩
    have whole := reached.source_eq
    refine ⟨whole, ?_, whole ▸ place.offset_isValid, place.rest?_eq, whole ▸ place.atEnd_iff⟩
    rw [utf8ByteSize_ofList, ← String.length_toList]
    exact offset_advances_start buffer text.toList counts
  · intro place _ first second
    refine ⟨advance_advance first second place, ?_⟩
    intro limit bounded
    rw [advance_advance, advance_min bounded]
  · intro first middle last reached reached' reached'' ordered ordered'
    have step := reached.reaches_of_offset_le reached' ordered
    have step' := reached'.reaches_of_offset_le reached'' ordered'
    exact ⟨(step.consumedSince_append step').symm, (step.trans step').ahead_eq.symm⟩
  · intro place origin reached reached'
    exact ⟨reached.sliceSince?_eq reached', consumedSince_of_lt⟩
  · intro place origin differs
    exact ⟨if_pos (.inl differs), consumedSince_of_buffer_ne differs⟩

theorem advances_between_characters_mixed :
    let word := 2 ^ 64 - 1
    let first := (Cursor.start 0 "aé€𝄞".toList).advances [1]
    let middle := (Cursor.start 0 "aé€𝄞".toList).advances [0, 2]
    let last := (Cursor.start 0 "aé€𝄞".toList).advances [1, 2]
    (middle.offset = (String.ofList ['a', 'é']).utf8ByteSize ∧
        String.Pos.Raw.IsValid "aé€𝄞" ⟨middle.offset⟩) ∧
      (middle.ahead.length ≤ word ∧
        (middle.advance word).advance word = middle.advance (min (word + word) word)) ∧
      (first.offset ≤ middle.offset ∧ middle.offset ≤ last.offset ∧
        middle.consumedSince first ++ last.consumedSince middle = last.consumedSince first) ∧
      (first.offset < last.offset ∧ first.consumedSince last = []) ∧
      first.buffer ≠ (Cursor.start 1 []).buffer ∧ first.consumedSince (Cursor.start 1 []) = [] := by
  intro word first middle last
  have firstReached : ReachedIn 0 "aé€𝄞" first := ⟨_, rfl⟩
  have middleReached : ReachedIn 0 "aé€𝄞" middle := ⟨_, rfl⟩
  have lastReached : ReachedIn 0 "aé€𝄞" last := ⟨_, rfl⟩
  have bounded : middle.ahead.length ≤ word := by decide
  have ordered : first.offset ≤ middle.offset := by decide
  have ordered' : middle.offset ≤ last.offset := by decide
  have before : first.offset < last.offset := by decide
  have differs : first.buffer ≠ (Cursor.start 1 []).buffer := by decide
  obtain ⟨boundary, moves, parts, slices, apart⟩ := advances_between_characters 0 "aé€𝄞"
  obtain ⟨-, offset, valid, -, -⟩ := boundary [0, 2]
  exact ⟨⟨offset, valid⟩, ⟨bounded, (moves _ middleReached word word).2 word bounded⟩,
    ⟨ordered, ordered', (parts _ _ _ firstReached middleReached lastReached ordered ordered').1⟩,
    ⟨before, (slices _ _ firstReached lastReached).2 before⟩, differs, (apart _ _ differs).2⟩

end Cursor

end CombinatorJson
