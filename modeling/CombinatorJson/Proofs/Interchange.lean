import CombinatorJson.Json.Interchange
import CombinatorJson.Numeric.Integer
import CombinatorJson.Proofs.Numeric.Nearest
import CombinatorJson.Proofs.SortedMembers
import CombinatorJson.Proofs.Tree

set_option autoImplicit false

namespace CombinatorJson

namespace Json

mutual

/-- The tree with `null` in the place of each number that is not finite, and with the members of
every object in the order of their keys. -/
def normalized : Json → Json
  | number value => if value.isFinite then number value else null
  | array items => array (normalizedItems items)
  | object members => object (Members.inKeyOrder (normalizedMembers members))
  | other => other

def normalizedItems : List Json → List Json
  | [] => []
  | item :: rest => normalized item :: normalizedItems rest

def normalizedMembers : List (String × Json) → List (String × Json)
  | [] => []
  | (key, value) :: rest => (key, normalized value) :: normalizedMembers rest

end

theorem normalizedItems_eq_map (items : List Json) :
    normalizedItems items = items.map normalized :=
  eq_map_of_cons rfl (fun _ _ => rfl) items

theorem normalizedMembers_eq_map (members : List (String × Json)) :
    normalizedMembers members = members.map fun member => (member.1, member.2.normalized) :=
  eq_map_of_cons rfl (fun _ _ => rfl) members

inductive FiniteNumbers : Json → Prop where
  | null : FiniteNumbers .null
  | bool (value : Bool) : FiniteNumbers (.bool value)
  | number {value : Double} (finite : value.isFinite = true) : FiniteNumbers (.number value)
  | string (value : String) : FiniteNumbers (.string value)
  | array {items : List Json} (items_ok : ∀ item ∈ items, FiniteNumbers item) :
      FiniteNumbers (.array items)
  | object {members : List (String × Json)}
      (members_ok : ∀ member ∈ members, FiniteNumbers member.2) : FiniteNumbers (.object members)

theorem equalItems_map {f : Json → Json} {items : List Json}
    (items_ok : ∀ item ∈ items, equal (f item) item = true) :
    equalItems (items.map f) items = true := by
  induction items with
  | nil => rfl
  | cons item rest ih =>
    obtain ⟨first, tail⟩ := List.forall_mem_cons.mp items_ok
    rw [List.map_cons, equalItems, first, ih tail, Bool.and_self]

theorem equalMembers_of_find? {left others : Members Json}
    (members_ok : ∀ member ∈ left, ∃ other, Members.find? member.1 others = some other ∧
      equal member.2 other = true) : equalMembers left others = true := by
  induction left with
  | nil => rfl
  | cons member rest ih =>
    obtain ⟨⟨other, found, same⟩, tail⟩ := List.forall_mem_cons.mp members_ok
    simp only [equalMembers, found, same, ih tail, Bool.and_self]

theorem equal_normalized {json : Json} (unique : json.UniqueKeys) (finite : json.FiniteNumbers) :
    equal json.normalized json = true := by
  induction json using inductionOn with
  | null => rfl
  | bool value => simp [normalized, equal]
  | number value =>
    cases finite with
    | number finite =>
      cases value with
      | nan => contradiction
      | signed negative rank => simp [normalized, finite, equal, Binary.equal]
  | string value => simp [normalized, equal]
  | array items ih =>
    have unique := uniqueKeys_array_iff.mp unique
    cases finite with
    | array items_ok =>
      rw [normalized, normalizedItems_eq_map, equal]
      exact equalItems_map fun item known => ih item known (unique item known) (items_ok item known)
  | object members ih =>
    obtain ⟨unique, values_ok⟩ := uniqueKeys_object_iff.mp unique
    cases finite with
    | object members_ok =>
      rw [normalized, normalizedMembers_eq_map, equal, Bool.and_eq_true]
      constructor
      · simp [Members.inKeyOrder]
      apply equalMembers_of_find?
      intro placed ordered
      -- Sorting has moved the member, but under its key it is still found.
      have mapped := (Members.inKeyOrder_perm _).mem_iff.mp ordered
      obtain ⟨member, known, rfl⟩ := List.mem_map.mp mapped
      have same := ih member known (values_ok member known) (members_ok member known)
      exact ⟨member.2, Members.find?_of_mem unique known, same⟩

theorem itemsToInterchange_eq_map (items : List Json) :
    itemsToInterchange items = items.map toInterchange :=
  eq_map_of_cons rfl (fun _ _ => rfl) items

theorem membersToInterchange_eq_map (members : List (String × Json)) :
    membersToInterchange members =
      members.map fun member => (member.1, member.2.toInterchange) :=
  eq_map_of_cons rfl (fun _ _ => rfl) members

theorem toInterchange_object (members : List (String × Json)) :
    (object members).toInterchange = .object
      ((Members.sortedOfPairs members).map fun member => (member.1, member.2.toInterchange)) := by
  rw [toInterchange, membersToInterchange_eq_map, Interchange.ofPairs, Members.sortedOfPairs_map]

end Json

namespace Interchange

theorem itemsToJson_eq_map (items : List Interchange) : itemsToJson items = items.map toJson :=
  eq_map_of_cons rfl (fun _ _ => rfl) items

theorem membersToJson_eq_map (members : List (String × Interchange)) :
    membersToJson members = members.map fun member => (member.1, member.2.toJson) :=
  eq_map_of_cons rfl (fun _ _ => rfl) members

theorem toJson_object {members : List (String × Interchange)}
    (unique : (Members.keys members).Nodup) :
    (object members).toJson = .object (members.map fun member => (member.1, member.2.toJson)) := by
  have kept := Members.unique_map_values toJson unique
  rw [toJson, membersToJson_eq_map, Json.ofPairs, Members.ofPairs_of_unique kept]

end Interchange

theorem Json.toJson_toInterchange {json : Json} (unique : json.UniqueKeys) :
    json.toInterchange.toJson = json.normalized := by
  induction json using inductionOn with
  | null => rfl
  | bool value => rfl
  | number value =>
    rw [toInterchange, Interchange.ofDouble, normalized]
    split <;> rfl
  | string value => rfl
  | array items ih =>
    have unique := uniqueKeys_array_iff.mp unique
    rw [toInterchange, itemsToInterchange_eq_map, Interchange.toJson,
      Interchange.itemsToJson_eq_map, List.map_map, normalized, normalizedItems_eq_map]
    congr 1
    exact List.map_congr_left fun item known => ih item known (unique item known)
  | object members ih =>
    obtain ⟨unique, values_ok⟩ := uniqueKeys_object_iff.mp unique
    -- Sorting looks at keys alone, so it may come before the values are crossed or after.
    have sorted := (Members.sorted_sortedOfPairs members).map_values toInterchange
    have crossed : (Members.sortedOfPairs members).map
          (fun member => (member.1, member.2.toInterchange.toJson)) =
        (Members.sortedOfPairs members).map fun member => (member.1, member.2.normalized) := by
      apply List.map_congr_left
      intro member known
      have known := Members.mem_of_mem_sortedOfPairs known
      rw [ih member known (values_ok member known)]
    have kept := Members.unique_map_values normalized unique
    calc (object members).toInterchange.toJson
      _ = object ((Members.sortedOfPairs members).map
            fun member => (member.1, member.2.toInterchange.toJson)) := by
        rw [toInterchange_object, Interchange.toJson_object sorted.unique, List.map_map]
        rfl
      _ = object (Members.sortedOfPairs
            (members.map fun member => (member.1, member.2.normalized))) := by
        rw [crossed, Members.sortedOfPairs_map]
      _ = (object members).normalized := by
        rw [normalized, normalizedMembers_eq_map, Members.sortedOfPairs_of_unique kept]

namespace Interchange

/-- A tree of the model: its integers have 64 bits, with a sign or without one, its doubles are
finite, and its objects hold their members in the order of their keys. -/
inductive WellFormed : Interchange → Prop where
  | null : WellFormed .null
  | bool (value : Bool) : WellFormed (.bool value)
  | integer {value : Int} (signed : Bool) (bounded : IntegerType.Contains ⟨signed, .w64⟩ value) :
      WellFormed (.integer value)
  | double {value : Double} (finite : value.isFinite = true) : WellFormed (.double value)
  | string (value : String) : WellFormed (.string value)
  | array {items : List Interchange} (items_ok : ∀ item ∈ items, WellFormed item) :
      WellFormed (.array items)
  | object {members : List (String × Interchange)} (sorted : Members.Sorted members)
      (members_ok : ∀ member ∈ members, WellFormed member.2) : WellFormed (.object members)

theorem wellFormed_toInterchange (json : Json) : json.toInterchange.WellFormed := by
  induction json using Json.inductionOn with
  | null => exact .null
  | bool value => exact .bool value
  | number value =>
    by_cases finite : value.isFinite = true
    · simpa [Json.toInterchange, ofDouble, finite] using WellFormed.double finite
    · simpa [Json.toInterchange, ofDouble, finite] using WellFormed.null
  | string value => exact .string value
  | array items ih =>
    rw [Json.toInterchange, Json.itemsToInterchange_eq_map]
    apply WellFormed.array
    simpa using ih
  | object members ih =>
    rw [Json.toInterchange_object]
    apply WellFormed.object
    · exact (Members.sorted_sortedOfPairs members).map_values Json.toInterchange
    · intro crossed mapped
      obtain ⟨member, known, rfl⟩ := List.mem_map.mp mapped
      exact ih member (Members.mem_of_mem_sortedOfPairs known)

mutual

def withDoubles : Interchange → Interchange
  | integer value => double (.ofInt value)
  | array items => array (itemsWithDoubles items)
  | object members => object (membersWithDoubles members)
  | other => other

def itemsWithDoubles : List Interchange → List Interchange
  | [] => []
  | item :: rest => withDoubles item :: itemsWithDoubles rest

def membersWithDoubles : List (String × Interchange) → List (String × Interchange)
  | [] => []
  | (key, value) :: rest => (key, withDoubles value) :: membersWithDoubles rest

end

theorem itemsWithDoubles_eq_map (items : List Interchange) :
    itemsWithDoubles items = items.map withDoubles :=
  eq_map_of_cons rfl (fun _ _ => rfl) items

theorem membersWithDoubles_eq_map (members : List (String × Interchange)) :
    membersWithDoubles members = members.map fun member => (member.1, member.2.withDoubles) :=
  eq_map_of_cons rfl (fun _ _ => rfl) members

theorem natAbs_le_of_contains {signed : Bool} {value : Int}
    (bounded : IntegerType.Contains ⟨signed, .w64⟩ value) : value.natAbs ≤ 2 ^ 64 := by
  obtain ⟨lower, upper⟩ := bounded
  cases signed <;> simp [IntegerType.least, IntegerType.greatest, Width.bits] at lower upper <;>
    omega

variable {tree : Interchange}

theorem WellFormed.toInterchange_toJson (well : tree.WellFormed) :
    tree.toJson.toInterchange = tree.withDoubles := by
  induction well with
  | null | bool | string => rfl
  | @integer value signed bounded =>
    have finite := Binary.isFinite_ofInt (natAbs_le_of_contains bounded)
    simp [toJson, Json.toInterchange, ofDouble, finite, withDoubles]
  | double finite => simp [toJson, Json.toInterchange, ofDouble, finite, withDoubles]
  | array _ ih =>
    rw [toJson, itemsToJson_eq_map, Json.toInterchange, Json.itemsToInterchange_eq_map,
      List.map_map, withDoubles, itemsWithDoubles_eq_map]
    congr 1
    exact List.map_congr_left ih
  | @object members sorted _ ih =>
    have kept := sorted.map_values toJson
    rw [toJson_object sorted.unique, Json.toInterchange_object,
      Members.sortedOfPairs_of_sorted kept, List.map_map, withDoubles, membersWithDoubles_eq_map]
    congr 1
    apply List.map_congr_left
    intro member known
    simp [ih member known]

theorem WellFormed.toJson_withDoubles (well : tree.WellFormed) :
    tree.withDoubles.toJson = tree.toJson := by
  induction well with
  | null | bool | integer | double | string => rfl
  | array _ ih =>
    simp only [withDoubles, itemsWithDoubles_eq_map, toJson, itemsToJson_eq_map, List.map_map]
    congr 1
    exact List.map_congr_left ih
  | @object members sorted _ ih =>
    have kept := Members.unique_map_values withDoubles sorted.unique
    rw [withDoubles, membersWithDoubles_eq_map, toJson_object kept, toJson_object sorted.unique,
      List.map_map]
    congr 1
    apply List.map_congr_left
    intro member known
    simp [ih member known]

/-- What comes back from the model is the tree in its normal form, and a tree that came from the
model crosses without any loss. Of the model itself only integers change, to the doubles nearest
to them. -/
theorem crossing_normalizes :
    (∀ json : Json, json.UniqueKeys →
      json.toInterchange.WellFormed ∧ json.toInterchange.toJson = json.normalized ∧
      (json.FiniteNumbers → (json.toInterchange.toJson == json) = true)) ∧
    (∀ tree : Interchange, tree.WellFormed →
      tree.toJson.toInterchange.toJson = tree.toJson ∧
      tree.toJson.toInterchange = tree.withDoubles) ∧
    ∀ value : Int, Binary.Rounds (value < 0) |(value : ℚ)| (Binary.ofInt value : Double) := by
  refine ⟨?_, ?_, ?_⟩
  · intro json unique
    have back := Json.toJson_toInterchange unique
    refine ⟨wellFormed_toInterchange json, back, ?_⟩
    intro finite
    rw [back]
    exact Json.equal_normalized unique finite
  · intro tree well
    have there := well.toInterchange_toJson
    refine ⟨?_, there⟩
    rw [there]
    exact well.toJson_withDoubles
  · exact fun value => Binary.rounds_ofInt (by decide) (by decide) value

theorem crossing_normalizes_members :
    (Json.object [("b", .number .nan), ("a", .bool true)]).toInterchange.toJson =
        .object [("a", .bool true), ("b", .null)] ∧
      (Json.object [("b", .null), ("a", .bool true)]).toInterchange.toJson ==
        .object [("b", .null), ("a", .bool true)] ∧
      (object [("a", .integer (-3)), ("b", .string "s")]).toJson.toInterchange =
        object [("a", .double (.ofInt (-3))), ("b", .string "s")] := by
  have unique (first second : Json) (first_ok : first.UniqueKeys) (second_ok : second.UniqueKeys) :
      (Json.object [("b", first), ("a", second)]).UniqueKeys := by
    refine .object (by simp) ?_
    simpa using ⟨first_ok, second_ok⟩
  have finite : (Json.object [("b", .null), ("a", .bool true)]).FiniteNumbers := by
    refine .object ?_
    simpa using ⟨Json.FiniteNumbers.null, Json.FiniteNumbers.bool true⟩
  have sorted : Members.Sorted [("a", integer (-3)), ("b", string "s")] := by
    rw [Members.Sorted]
    simp only [Members.keys_cons, Members.keys_nil]
    decide
  have well : (object [("a", .integer (-3)), ("b", .string "s")]).WellFormed := by
    refine .object sorted ?_
    simpa using ⟨WellFormed.integer true (by decide), WellFormed.string "s"⟩
  have crossed := (crossing_normalizes.1 _ (unique _ _ (.number .nan) (.bool true))).2.1
  have equal := (crossing_normalizes.1 _ (unique _ _ .null (.bool true))).2.2 finite
  refine ⟨?_, equal, (crossing_normalizes.2.1 _ well).2⟩
  have later : ¬"b" ≤ "a" := by decide
  simp [crossed, Json.normalized, Json.normalizedMembers, Binary.isFinite, Members.inKeyOrder,
    List.mergeSort, List.MergeSort.Internal.splitInTwo, later]

end Interchange

end CombinatorJson
