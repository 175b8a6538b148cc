import CombinatorJson.Proofs.Interchange

set_option autoImplicit false

namespace CombinatorJson

variable {ε : Type} {serializer : Serializer ε Interchange}

/-- What a serializer does that builds trees of the model, given what it has built so far of an
array and of an object. -/
structure Serializer.Builds (serializer : Serializer ε Interchange)
    (items : serializer.Sequence → List Interchange)
    (members : serializer.Mapping → Members Interchange) : Prop where
  unit : serializer.unit = .ok .null
  bool : ∀ value, serializer.bool value = .ok (.bool value)
  finite : ∀ value, value.isFinite = true → serializer.number value = .ok (.double value)
  notFinite : ∀ value, value.isFinite = false → serializer.number value = .ok .null
  string : ∀ value, serializer.string value = .ok (.string value)
  beginSequence : ∀ length, ∃ begun, serializer.beginSequence length = .ok begun ∧ items begun = []
  element : ∀ written item, ∃ more, serializer.element written item = .ok more ∧
    items more = items written ++ [item]
  endSequence : ∀ written, serializer.endSequence written = .ok (.array (items written))
  beginMapping : ∀ length, ∃ begun, serializer.beginMapping length = .ok begun ∧ members begun = []
  entry : ∀ written key value, ∃ more, serializer.entry written key value = .ok more ∧
    members more = Members.insertSorted key value (members written)
  endMapping : ∀ written, serializer.endMapping written = .ok (.object (members written))

namespace Serializer.Builds

open Json

variable {items : serializer.Sequence → List Interchange}
  {members : serializer.Mapping → Members Interchange} (builds : serializer.Builds items members)
include builds

theorem number (value : Double) : serializer.number value = .ok (.ofDouble value) := by
  cases finite : value.isFinite with
  | true => simpa [Interchange.ofDouble, finite] using builds.finite value finite
  | false => simpa [Interchange.ofDouble, finite] using builds.notFinite value finite

theorem serializeItems {parts : List Json}
    (parts_ok : ∀ part ∈ parts, part.serialize serializer = .ok part.toInterchange)
    (written : serializer.Sequence) :
    ∃ more, Json.serializeItems serializer written parts = .ok more ∧
      items more = items written ++ parts.map toInterchange := by
  induction parts generalizing written with
  | nil => exact ⟨written, rfl, by simp⟩
  | cons part rest ih =>
    obtain ⟨part_ok, rest_ok⟩ := List.forall_mem_cons.mp parts_ok
    obtain ⟨more, element, held⟩ := builds.element written part.toInterchange
    obtain ⟨all, tail, held'⟩ := ih rest_ok more
    refine ⟨all, ?_, by simp [held', held]⟩
    simp only [Json.serializeItems, part_ok, element, bind, Except.bind, tail]

theorem serializeMembers {pairs : List (String × Json)}
    (pairs_ok : ∀ pair ∈ pairs, pair.2.serialize serializer = .ok pair.2.toInterchange)
    (written : serializer.Mapping) :
    ∃ more, Json.serializeMembers serializer written pairs = .ok more ∧
      members more = Members.insertAllSorted (members written)
        (pairs.map fun pair => (pair.1, pair.2.toInterchange)) := by
  induction pairs generalizing written with
  | nil => exact ⟨written, rfl, rfl⟩
  | cons pair rest ih =>
    obtain ⟨pair_ok, rest_ok⟩ := List.forall_mem_cons.mp pairs_ok
    obtain ⟨more, entry, held⟩ := builds.entry written pair.1 pair.2.toInterchange
    obtain ⟨all, tail, held'⟩ := ih rest_ok more
    refine ⟨all, ?_, ?_⟩
    · simp only [Json.serializeMembers, pair_ok, entry, bind, Except.bind, tail]
    · rw [held', held, List.map_cons, Members.insertAllSorted_cons]

theorem serialize (json : Json) : json.serialize serializer = .ok json.toInterchange := by
  induction json using Json.inductionOn with
  | null => exact builds.unit
  | bool value => exact builds.bool value
  | number value => exact builds.number value
  | string value => exact builds.string value
  | array parts ih =>
    obtain ⟨begun, beginning, empty⟩ := builds.beginSequence parts.length
    obtain ⟨all, written, held⟩ := builds.serializeItems ih begun
    simp only [Json.serialize, beginning, written, bind, Except.bind, builds.endSequence, held,
      empty, List.nil_append, toInterchange, itemsToInterchange_eq_map]
  | object pairs ih =>
    obtain ⟨begun, beginning, empty⟩ := builds.beginMapping pairs.length
    obtain ⟨all, written, held⟩ := builds.serializeMembers ih begun
    simp only [Json.serialize, beginning, written, bind, Except.bind, builds.endMapping, held,
      empty, toInterchange, membersToInterchange_eq_map, Interchange.ofPairs,
      Members.sortedOfPairs_eq_insertAllSorted]

end Serializer.Builds

namespace Interchange

theorem consumer_builds : consumer.serializer.Builds List.reverse
    fun written => Members.sortedOfPairs written.reverse where
  unit := rfl
  bool _ := rfl
  finite value finite := by simp [Consumer.serializer, consumer, ofDouble, finite]
  notFinite value finite := by simp [Consumer.serializer, consumer, ofDouble, finite]
  string _ := rfl
  beginSequence _ := ⟨[], rfl, rfl⟩
  element written item := ⟨item :: written, rfl, List.reverse_cons⟩
  endSequence _ := rfl
  beginMapping _ := ⟨[], rfl, rfl⟩
  entry written key value :=
    ⟨(key, value) :: written, rfl, Members.sortedOfPairs_reverse_cons (key, value) written⟩
  endMapping _ := rfl

theorem serialize_eq_toInterchange (json : Json) :
    (∀ (ε : Type) (serializer : Serializer ε Interchange)
        (items : serializer.Sequence → List Interchange)
        (members : serializer.Mapping → Members Interchange), serializer.Builds items members →
      json.serialize serializer = .ok json.toInterchange) ∧
    json.fold consumer = json.toInterchange := by
  refine ⟨fun _ _ _ _ builds => builds.serialize json, ?_⟩
  rw [Json.fold, consumer_builds.serialize]

theorem serialize_eq_toInterchange_nested :
    consumer.serializer.Builds List.reverse (fun written => Members.sortedOfPairs written.reverse) ∧
      (Json.object [("b", .array [.number .nan, .number (.zero true)]), ("a", .object [])]).serialize
          consumer.serializer =
        .ok (.object [("a", .object []), ("b", .array [.null, .double (.zero true)])]) := by
  have written := (serialize_eq_toInterchange
    (.object [("b", .array [.number .nan, .number (.zero true)]), ("a", .object [])])).1 _ _ _ _
      consumer_builds
  refine ⟨consumer_builds, written.trans ?_⟩
  rfl

end Interchange

end CombinatorJson
