import CombinatorJson.Proofs.Typed.Located
import CombinatorJson.Proofs.SortedMembers

set_option autoImplicit false

namespace CombinatorJson

variable {schema : Schema} {shape : Shape}

namespace Shape

/-- Nothing in a value of the shape shows the order in which members were listed. -/
def OrderFree (schema : Schema) (shape : Shape) : Prop :=
  ∀ steps component, shape.Asks schema steps component →
    component ≠ .json ∧ ∀ value, component ≠ .map .insertion value

theorem OrderFree.not_json (free : json.OrderFree schema) : False :=
  (free [] json (.here json)).1 rfl

theorem OrderFree.not_insertion {value : Shape} (free : (map .insertion value).OrderFree schema) :
    False :=
  (free [] _ (.here _)).2 value rfl

theorem OrderFree.option {inner : Shape} (free : (option inner).OrderFree schema) :
    inner.OrderFree schema :=
  fun steps component asks => free steps component (.option asks)

theorem OrderFree.list {item : Shape} (free : (list item).OrderFree schema) :
    item.OrderFree schema :=
  fun steps component asks => free (.index 0 :: steps) component (.item asks)

theorem OrderFree.map {order : KeyOrder} {value : Shape} (free : (map order value).OrderFree schema) :
    value.OrderFree schema :=
  fun steps component asks => free (.key "" :: steps) component (.entry asks)

theorem OrderFree.field {name : String} {asked : String × Shape}
    (free : (record name).OrderFree schema) (known : asked ∈ schema.fields name) :
    asked.2.OrderFree schema :=
  fun steps component asks => free (.key asked.1 :: steps) component (.field known asks)

end Shape

namespace Json

inductive Reordered : Json → Json → Prop where
  | refl (json : Json) : Reordered json json
  | trans {left middle right : Json} (first : Reordered left middle)
      (second : Reordered middle right) : Reordered left right
  | members {members others : List (String × Json)} (permuted : members.Perm others) :
      Reordered (.object members) (.object others)
  | item {left right : Json} (before after : List Json) (part : Reordered left right) :
      Reordered (.array (before ++ left :: after)) (.array (before ++ right :: after))
  | member {left right : Json} (before after : List (String × Json)) (key : String)
      (part : Reordered left right) :
      Reordered (.object (before ++ (key, left) :: after))
        (.object (before ++ (key, right) :: after))

/-- Besides, members that no field asks for come to objects that are read as records, or go. -/
inductive Rearranged (schema : Schema) : Shape → Json → Json → Prop where
  | reordered {shape : Shape} {left right : Json} (same : Reordered left right) :
      Rearranged schema shape left right
  | trans {shape : Shape} {left middle right : Json} (first : Rearranged schema shape left middle)
      (second : Rearranged schema shape middle right) : Rearranged schema shape left right
  | added {name key : String} {value : Json} (before after : List (String × Json))
      (unlisted : key ∉ Members.keys (schema.fields name))
      (fresh : key ∉ Members.keys (before ++ after)) (unique : value.UniqueKeys) :
      Rearranged schema (.record name) (.object (before ++ after))
        (.object (before ++ (key, value) :: after))
  | removed {name key : String} {value : Json} (before after : List (String × Json))
      (unlisted : key ∉ Members.keys (schema.fields name)) :
      Rearranged schema (.record name) (.object (before ++ (key, value) :: after))
        (.object (before ++ after))
  | option {inner : Shape} {left right : Json} (same : Rearranged schema inner left right) :
      Rearranged schema (.option inner) left right
  | item {item : Shape} {left right : Json} (before after : List Json)
      (part : Rearranged schema item left right) :
      Rearranged schema (.list item) (.array (before ++ left :: after))
        (.array (before ++ right :: after))
  | entry {order : KeyOrder} {value : Shape} {left right : Json}
      (before after : List (String × Json)) (key : String)
      (part : Rearranged schema value left right) :
      Rearranged schema (.map order value) (.object (before ++ (key, left) :: after))
        (.object (before ++ (key, right) :: after))
  | field {name key : String} {shape : Shape} {left right : Json}
      (before after : List (String × Json)) (listed : (key, shape) ∈ schema.fields name)
      (part : Rearranged schema shape left right) :
      Rearranged schema (.record name) (.object (before ++ (key, left) :: after))
        (.object (before ++ (key, right) :: after))

theorem uniqueKeys_item {before after : List Json} {left right : Json}
    (unique : (array (before ++ left :: after)).UniqueKeys)
    (part : left.UniqueKeys → right.UniqueKeys) :
    (array (before ++ right :: after)).UniqueKeys := by
  rw [uniqueKeys_array_iff, List.forall_mem_append, List.forall_mem_cons] at unique ⊢
  exact ⟨unique.1, part unique.2.1, unique.2.2⟩

theorem uniqueKeys_member {before after : List (String × Json)} {key : String} {left right : Json}
    (unique : (object (before ++ (key, left) :: after)).UniqueKeys)
    (part : left.UniqueKeys → right.UniqueKeys) :
    (object (before ++ (key, right) :: after)).UniqueKeys := by
  rw [uniqueKeys_object_iff, List.forall_mem_append, List.forall_mem_cons] at unique ⊢
  simp only [Members.keys_append, Members.keys_cons] at unique ⊢
  exact ⟨unique.1, unique.2.1, part unique.2.2.1, unique.2.2.2⟩

theorem Reordered.uniqueKeys {left right : Json} (reordered : Reordered left right)
    (unique : left.UniqueKeys) : right.UniqueKeys := by
  induction reordered with
  | refl => exact unique
  | trans _ _ ih ih' => exact ih' (ih unique)
  | members permuted =>
    rw [uniqueKeys_object_iff] at unique ⊢
    refine ⟨Members.unique_perm permuted unique.1, fun member known => ?_⟩
    exact unique.2 member (permuted.mem_iff.mpr known)
  | item _ _ _ ih => exact uniqueKeys_item unique ih
  | member _ _ _ _ ih => exact uniqueKeys_member unique ih

theorem Rearranged.uniqueKeys {left right : Json} (rearranged : Rearranged schema shape left right)
    (unique : left.UniqueKeys) : right.UniqueKeys := by
  induction rearranged with
  | reordered same => exact same.uniqueKeys unique
  | trans _ _ ih ih' => exact ih' (ih unique)
  | added before after _ fresh value_ok =>
    rw [uniqueKeys_object_iff, List.forall_mem_append] at unique
    rw [uniqueKeys_object_iff, List.forall_mem_append, List.forall_mem_cons]
    exact ⟨(Members.unique_middle _ _ _).mpr ⟨fresh, unique.1⟩, unique.2.1, value_ok, unique.2.2⟩
  | removed before after _ =>
    rw [uniqueKeys_object_iff, List.forall_mem_append, List.forall_mem_cons] at unique
    rw [uniqueKeys_object_iff, List.forall_mem_append]
    exact ⟨((Members.unique_middle _ _ _).mp unique.1).2, unique.2.1, unique.2.2.2⟩
  | option _ ih => exact ih unique
  | item _ _ _ ih => exact uniqueKeys_item unique ih
  | entry _ _ _ _ ih | field _ _ _ _ ih => exact uniqueKeys_member unique ih

variable {left right : Json}

theorem Reordered.isNull_eq (reordered : Reordered left right) : left.isNull = right.isNull := by
  induction reordered with
  | trans _ _ ih ih' => exact ih.trans ih'
  | _ => rfl

theorem Rearranged.isNull_eq (rearranged : Rearranged schema shape left right) :
    left.isNull = right.isNull := by
  induction rearranged with
  | reordered same => exact same.isNull_eq
  | trans _ _ ih ih' => exact ih.trans ih'
  | option _ ih => exact ih
  | _ => rfl

end Json

end CombinatorJson
