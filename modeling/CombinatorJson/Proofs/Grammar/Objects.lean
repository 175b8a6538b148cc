import Mathlib.Data.List.Basic
import Mathlib.Data.List.Induction
import CombinatorJson.Proofs.Grammar.Document
import CombinatorJson.Proofs.SortedMembers

set_option autoImplicit false

namespace CombinatorJson

namespace Members

variable {α : Type} {pairs : List (String × α)} {members left right : Members α} {key : String}
  {value : α}

/-- Each key of the pairs once: in the order of the first occurrences, and with the value of the
last one. -/
structure Condensed (pairs : List (String × α)) (members : Members α) : Prop where
  ordered : (keys members).Pairwise fun left right =>
    (keys pairs).idxOf left < (keys pairs).idxOf right
  last : ∀ key value, (key, value) ∈ members ↔
    ∃ before after, pairs = before ++ (key, value) :: after ∧ key ∉ keys after

theorem find?_eq_some_iff_first : find? key members = some value ↔
    ∃ before after, members = before ++ (key, value) :: after ∧ key ∉ keys before := by
  constructor
  · intro found
    induction members with
    | nil => contradiction
    | cons member rest ih =>
      obtain ⟨candidate, held⟩ := member
      rw [find?] at found
      split at found
      · next same =>
        cases found
        exact ⟨[], rest, by rw [same, List.nil_append], List.not_mem_nil⟩
      · next different =>
        obtain ⟨before, after, rfl, fresh⟩ := ih found
        exact ⟨(candidate, held) :: before, after, rfl, by simp [Ne.symm different, fresh]⟩
  · rintro ⟨before, after, rfl, fresh⟩
    rw [find?_append, (find?_eq_none_iff key before).mpr fresh]
    simp [find?]

theorem find?_reverse_eq_some_iff_last : find? key pairs.reverse = some value ↔
    ∃ before after, pairs = before ++ (key, value) :: after ∧ key ∉ keys after := by
  have same (after : List (String × α)) : key ∈ keys after.reverse ↔ key ∈ keys after := by
    simp [keys]
  rw [find?_eq_some_iff_first]
  constructor
  · rintro ⟨before, after, split, fresh⟩
    refine ⟨after.reverse, before.reverse, ?_, mt (same before).mp fresh⟩
    rw [← List.reverse_reverse pairs, split]
    simp
  · rintro ⟨before, after, rfl, fresh⟩
    exact ⟨after.reverse, before.reverse, by simp, mt (same after).mp fresh⟩

theorem pairwise_idxOf_eraseDups (known : List String) :
    known.eraseDups.Pairwise fun left right => known.idxOf left < known.idxOf right := by
  induction known using List.reverseRecOn with
  | nil => exact .nil
  | append_singleton known key ih =>
    -- A place in the list does not change when the list grows at its end.
    have kept : known.eraseDups.Pairwise fun left right =>
        (known ++ [key]).idxOf left < (known ++ [key]).idxOf right := by
      refine ih.imp_of_mem fun left right less => ?_
      rwa [List.idxOf_append_of_mem (List.mem_eraseDups.mp left),
        List.idxOf_append_of_mem (List.mem_eraseDups.mp right)]
    rw [List.eraseDups_append]
    by_cases repeated : key ∈ known
    · simpa [List.removeAll, repeated] using kept
    · have fresh : ([key].removeAll known).eraseDups = [key] := by
        simp [List.removeAll, repeated, List.eraseDups_cons]
      rw [fresh, List.pairwise_append]
      refine ⟨kept, List.pairwise_singleton _ _, fun early member last same => ?_⟩
      obtain rfl := List.mem_singleton.mp same
      have before := List.mem_eraseDups.mp member
      rw [List.idxOf_append_of_mem before, List.idxOf_append_of_notMem repeated]
      have bounded := List.idxOf_lt_length_iff.mpr before
      omega

theorem Merges.condensed (merged : Merges pairs members) (unique : (keys members).Nodup) :
    Condensed pairs members := by
  constructor
  · rw [merged.1]
    exact pairwise_idxOf_eraseDups (keys pairs)
  · intro key value
    rw [← find?_eq_some_iff unique, merged.2, find?_reverse_eq_some_iff_last]

namespace Condensed

theorem unique_keys (condensed : Condensed pairs members) : (keys members).Nodup := by
  refine condensed.ordered.imp ?_
  rintro key _ less rfl
  exact absurd less (Nat.lt_irrefl _)

theorem unique (left_ok : Condensed pairs left) (right_ok : Condensed pairs right) : left = right := by
  have members (member : String × α) : member ∈ left ↔ member ∈ right :=
    (left_ok.last member.1 member.2).trans (right_ok.last member.1 member.2).symm
  have known (key : String) : key ∈ keys left ↔ key ∈ keys right := by
    simp [keys, members]
  -- Both orders are that of the first occurrences, which are all different.
  have permuted := (List.perm_ext_iff_of_nodup left_ok.unique_keys right_ok.unique_keys).mpr known
  have sameKeys : keys left = keys right := by
    refine permuted.eq_of_pairwise ?_ left_ok.ordered right_ok.ordered
    exact fun _ _ _ _ less greater => absurd less (Nat.lt_asymm greater)
  refine eq_of_find? left_ok.unique_keys sameKeys fun key => Option.ext fun value => ?_
  rw [find?_eq_some_iff left_ok.unique_keys, find?_eq_some_iff right_ok.unique_keys, members]

end Condensed

theorem condensed_iff : Condensed pairs members ↔ members = ofPairs pairs := by
  have built := (merges_ofPairs pairs).condensed (unique_ofPairs pairs)
  constructor
  · exact fun condensed => condensed.unique built
  · rintro rfl
    exact built

end Members

namespace Grammar

open CombinatorJson.Parser

inductive ObjectText : List Char → List (String × Json) → Prop where
  | empty {space : List Char} (space_ok : IsWhitespace space) :
      ObjectText ('{' :: (space ++ ['}'])) []
  | pairs {space text : List Char} {pairs : List (String × Json)} (space_ok : IsWhitespace space)
      (pairs_ok : PairsText text pairs) : ObjectText ('{' :: (space ++ text ++ ['}'])) pairs

theorem ObjectText.reads {text : List Char} {pairs : List (String × Json)}
    (object_ok : ObjectText text pairs) {depth : Nat} (enough : text.countP Json.isOpening ≤ depth)
    (next : Option Char) :
    ((object (ref Nonterminal.value)).run rules depth).Reads text next (Json.ofPairs pairs) := by
  cases depth with
  | zero => cases object_ok <;> simp [Json.isOpening] at enough
  | succ depth =>
    cases object_ok with
    | empty space_ok => exact reads_emptyObject space_ok depth next
    | pairs space_ok pairs_ok =>
      have fewer := countP_enclosed rfl enough
      have listed := (pairs_ok.reads depth fewer).reads_sepBy (breaks_comma (by decide) depth)
      exact reads_object listed space_ok (pairs_ok.noSpace _) next

end Grammar

namespace Json

open CombinatorJson.Grammar CombinatorJson.Parser

/-- An object from pairs holds each key once, at its first place and with its last value; and the
parser of objects makes the same object of every text that has these pairs in this order. -/
theorem ofPairs_condenses (pairs : List (String × Json)) :
    (∃ members, ofPairs pairs = object members ∧
      ∀ other, Members.Condensed pairs other ↔ other = members) ∧
    ∀ text, ObjectText text pairs → ∀ (depth : Nat) (start : Cursor) (rest : List Char),
      text.countP isOpening ≤ depth → start.ahead = text ++ rest →
      (Grammar.object (ref Nonterminal.value)).run rules depth start =
        some (.done (start.advance text.length) (ofPairs pairs)) := by
  constructor
  · exact ⟨Members.ofPairs pairs, rfl, fun _ => Members.condensed_iff⟩
  · intro text object_ok depth start rest enough ahead
    exact object_ok.reads enough rest.head? start rest ahead rfl

theorem ofPairs_condenses_respelled :
    ObjectText "\x7b\"a\":null,\"b\":true, \"\\u0061\" :false\x7d".toList
        [("a", .null), ("b", .bool true), ("a", .bool false)] ∧
      (Grammar.object (ref Nonterminal.value)).run rules 1
          (.start 0 "\x7b\"a\":null,\"b\":true, \"\\u0061\" :false\x7d]".toList) =
        some (.done
          ((Cursor.start 0 "\x7b\"a\":null,\"b\":true, \"\\u0061\" :false\x7d]".toList).advance 36)
          (.object [("a", .bool false), ("b", .bool true)])) := by
  have none_ok : IsWhitespace [] := by simp [IsWhitespace]
  have space_ok : IsWhitespace [' '] := by simp [IsWhitespace]
  have a : StringText "\"a\"".toList "a" := .mk (.cons (.plain (by decide) (by decide)) .nil)
  have b : StringText "\"b\"".toList "b" := .mk (.cons (.plain (by decide) (by decide)) .nil)
  have unit : PieceText "\\u0061".toList (.unit (4096 * 0 + 256 * 0 + 16 * 6 + 1)) :=
    .unicode (by decide) (by decide) (by decide) (by decide)
  have a' : StringText "\"\\u0061\"".toList "a" := .mk (.cons unit .nil)
  have first : PairText "\"a\":null".toList ("a", .null) :=
    .mk a none_ok none_ok (.mk .null none_ok)
  have second : PairText "\"b\":true".toList ("b", .bool true) :=
    .mk b none_ok none_ok (.mk .true none_ok)
  have third : PairText "\"\\u0061\" :false".toList ("a", .bool false) :=
    .mk a' space_ok none_ok (.mk .false none_ok)
  have object_ok :=
    ObjectText.pairs none_ok (.more first none_ok (.more second space_ok (.last third)))
  exact ⟨object_ok, (ofPairs_condenses _).2 _ object_ok 1 (.start 0 _) [']'] (by decide) rfl⟩

end Json

end CombinatorJson
