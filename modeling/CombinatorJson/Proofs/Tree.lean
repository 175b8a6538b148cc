import CombinatorJson.Json.Text

set_option autoImplicit false

namespace CombinatorJson

theorem eq_map_of_cons {α β : Type} {f : List α → List β} {g : α → β} (nil : f [] = [])
    (cons : ∀ x xs, f (x :: xs) = g x :: f xs) (xs : List α) : f xs = xs.map g := by
  induction xs with
  | nil => exact nil
  | cons x xs ih => rw [cons, ih, List.map_cons]

namespace Json

@[elab_as_elim] theorem inductionOn {motive : Json → Prop} (json : Json) (null : motive .null)
    (bool : ∀ value, motive (.bool value)) (number : ∀ value, motive (.number value))
    (string : ∀ value, motive (.string value))
    (array : ∀ items, (∀ item ∈ items, motive item) → motive (.array items))
    (object : ∀ members, (∀ member ∈ members, motive member.2) → motive (.object members)) :
    motive json := by
  refine Json.rec (motive_1 := motive) (motive_2 := fun items => ∀ item ∈ items, motive item)
    (motive_3 := fun members => ∀ member ∈ members, motive member.2)
    (motive_4 := fun member => motive member.2) null bool number string array object ?_ ?_ ?_ ?_ ?_
    json
  · intro item member
    contradiction
  · exact fun _ _ first rest => List.forall_mem_cons.mpr ⟨first, rest⟩
  · intro pair member
    contradiction
  · exact fun _ _ first rest => List.forall_mem_cons.mpr ⟨first, rest⟩
  · exact fun _ _ value => value

inductive UniqueKeys : Json → Prop where
  | null : UniqueKeys .null
  | bool (value : Bool) : UniqueKeys (.bool value)
  | number (value : Double) : UniqueKeys (.number value)
  | string (value : String) : UniqueKeys (.string value)
  | array {items : List Json} (items_ok : ∀ item ∈ items, UniqueKeys item) :
      UniqueKeys (.array items)
  | object {members : List (String × Json)} (unique : (Members.keys members).Nodup)
      (members_ok : ∀ member ∈ members, UniqueKeys member.2) : UniqueKeys (.object members)

theorem uniqueKeys_array_iff {items : List Json} :
    UniqueKeys (.array items) ↔ ∀ item ∈ items, UniqueKeys item := by
  constructor
  · intro unique
    cases unique with
    | array items_ok => exact items_ok
  · exact .array

theorem uniqueKeys_object_iff {members : List (String × Json)} :
    UniqueKeys (.object members) ↔
      (Members.keys members).Nodup ∧ ∀ member ∈ members, UniqueKeys member.2 := by
  constructor
  · intro unique
    cases unique with
    | object unique members_ok => exact ⟨unique, members_ok⟩
  · intro ⟨unique, members_ok⟩
    exact .object unique members_ok

mutual

def withoutNaN : Json → Json
  | number value => if value = .nan then null else number value
  | array items => array (itemsWithoutNaN items)
  | object members => object (membersWithoutNaN members)
  | other => other

def itemsWithoutNaN : List Json → List Json
  | [] => []
  | item :: rest => withoutNaN item :: itemsWithoutNaN rest

def membersWithoutNaN : List (String × Json) → List (String × Json)
  | [] => []
  | (key, value) :: rest => (key, withoutNaN value) :: membersWithoutNaN rest

end

theorem itemsWithoutNaN_eq_map (items : List Json) :
    itemsWithoutNaN items = items.map withoutNaN :=
  eq_map_of_cons rfl (fun _ _ => rfl) items

theorem membersWithoutNaN_eq_map (members : List (String × Json)) :
    membersWithoutNaN members = members.map fun member => (member.1, member.2.withoutNaN) :=
  eq_map_of_cons rfl (fun _ _ => rfl) members

inductive NaNFree : Json → Prop where
  | null : NaNFree .null
  | bool (value : Bool) : NaNFree (.bool value)
  | number {value : Double} (real : value ≠ .nan) : NaNFree (.number value)
  | string (value : String) : NaNFree (.string value)
  | array {items : List Json} (items_ok : ∀ item ∈ items, NaNFree item) : NaNFree (.array items)
  | object {members : List (String × Json)} (members_ok : ∀ member ∈ members, NaNFree member.2) :
      NaNFree (.object members)

theorem nanFree_array_iff {items : List Json} :
    NaNFree (.array items) ↔ ∀ item ∈ items, NaNFree item := by
  constructor
  · intro free
    cases free with
    | array items_ok => exact items_ok
  · exact .array

theorem nanFree_object_iff {members : List (String × Json)} :
    NaNFree (.object members) ↔ ∀ member ∈ members, NaNFree member.2 := by
  constructor
  · intro free
    cases free with
    | object members_ok => exact members_ok
  · exact .object

theorem map_eq_self_iff {α : Type} {f : α → α} {xs : List α} :
    xs.map f = xs ↔ ∀ x ∈ xs, f x = x := by
  induction xs with
  | nil => simp
  | cons x xs ih => simp [ih]

theorem withoutNaN_eq_self_iff (json : Json) : json.withoutNaN = json ↔ json.NaNFree := by
  induction json using inductionOn with
  | null => exact ⟨fun _ => .null, fun _ => rfl⟩
  | bool value => exact ⟨fun _ => .bool value, fun _ => rfl⟩
  | number value =>
    by_cases missing : value = .nan
    · subst missing
      constructor
      · intro same
        contradiction
      · rintro ⟨real⟩
        contradiction
    · simpa [withoutNaN, missing] using NaNFree.number missing
  | string value => exact ⟨fun _ => .string value, fun _ => rfl⟩
  | array items ih =>
    rw [withoutNaN, itemsWithoutNaN_eq_map, array.injEq, map_eq_self_iff, nanFree_array_iff]
    exact forall_congr' fun item => forall_congr' fun known => ih item known
  | object members ih =>
    rw [withoutNaN, membersWithoutNaN_eq_map, object.injEq, map_eq_self_iff, nanFree_object_iff]
    refine forall_congr' fun member => forall_congr' fun known => ?_
    simp [Prod.ext_iff, ih member known]

theorem itemChars_eq_map (items : List Json) : itemChars items = items.map chars :=
  eq_map_of_cons rfl (fun _ _ => rfl) items

theorem memberChars_eq_map (members : List (String × Json)) :
    memberChars members =
      members.map fun member => stringChars member.1 ++ ':' :: member.2.chars :=
  eq_map_of_cons rfl (fun _ _ => rfl) members

end Json

end CombinatorJson
