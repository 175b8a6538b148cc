import CombinatorJson.Proofs.Typed.Parts
import Mathlib.Data.List.Forall2

set_option autoImplicit false

namespace CombinatorJson

theorem forall_right {α β : Type} {R : α → β → Prop} {p : β → Prop} {xs : List α} {ys : List β}
    (related : List.Forall₂ R xs ys) (keeps : ∀ x ∈ xs, ∀ y, R x y → p y) : ∀ y ∈ ys, p y := by
  induction related with
  | nil => nofun
  | cons first _ ih =>
    obtain ⟨here, later⟩ := List.forall_mem_cons.mp keeps
    exact List.forall_mem_cons.mpr ⟨here _ first, ih later⟩

theorem keys_of_related {α β : Type} {R : String × α → String × β → Prop} {xs : Members α}
    {ys : Members β} (same : ∀ x y, R x y → x.1 = y.1) (related : List.Forall₂ R xs ys) :
    Members.keys ys = Members.keys xs := by
  induction related with
  | nil => rfl
  | cons first _ ih => rw [Members.keys_cons, Members.keys_cons, ih, same _ _ first]

theorem related_replace {α β : Type} {R : α → β → Prop} {x y : α} (before after : List α)
    (same : ∀ z, R x z ↔ R y z) (zs : List β) :
    List.Forall₂ R (before ++ x :: after) zs ↔ List.Forall₂ R (before ++ y :: after) zs := by
  induction before generalizing zs with
  | nil => cases zs <;> simp [List.forall₂_cons, same]
  | cons w before ih => cases zs <;> simp [List.forall₂_cons, ih]

theorem related_congr {α β : Type} {R S : α → β → Prop} {xs : List α}
    (same : ∀ x ∈ xs, ∀ y, R x y ↔ S x y) (ys : List β) :
    List.Forall₂ R xs ys ↔ List.Forall₂ S xs ys := by
  induction xs generalizing ys with
  | nil => cases ys <;> simp
  | cons x xs ih =>
    obtain ⟨here, later⟩ := List.forall_mem_cons.mp same
    cases ys <;> simp [List.forall₂_cons, here, ih later]

namespace Json

variable {schema : Schema} {shape : Shape}

def Reads (schema : Schema) (shape : Shape) (json : Json) (value : Datum) : Prop :=
  json.decode schema shape = .ok value

def ReadsEntry (schema : Schema) (shape : Shape) (member : String × Json)
    (entry : String × Datum) : Prop :=
  member.1 = entry.1 ∧ Reads schema shape member.2 entry.2

def ReadsUnder (schema : Schema) (members : Members Json) (asked : String × Shape)
    (value : Datum) : Prop :=
  ∃ part, members.find? asked.1 = some part ∧ Reads schema asked.2 part value

def ReadsField (schema : Schema) (members : Members Json) (asked : String × Shape)
    (field : String × Datum) : Prop :=
  asked.1 = field.1 ∧ ReadsUnder schema members asked field.2

theorem decodeItems_eq_ok_iff {items : List Json} {values : List Datum} (index : Nat) :
    decodeItems shape index (items.map (decoder schema)) = .ok values ↔
      List.Forall₂ (Reads schema shape) items values := by
  induction items generalizing index values with
  | nil => cases values <;> simp [decodeItems]
  | cons json rest ih =>
    rw [List.map_cons, decodeItems_cons_eq_ok_iff]
    cases values with
    | nil => simp
    | cons value values => simp [List.forall₂_cons, ih, Reads, decode]

theorem decodeEntries_eq_ok_iff {members entries} :
    decodeEntries shape (members.map fun (key, json) => (key, decoder schema json)) = .ok entries ↔
      List.Forall₂ (ReadsEntry schema shape) members entries := by
  induction members generalizing entries with
  | nil => cases entries <;> simp [decodeEntries]
  | cons member rest ih =>
    rw [List.map_cons, decodeEntries_cons_eq_ok_iff]
    cases entries with
    | nil => simp
    | cons entry entries =>
      simp only [List.forall₂_cons, ReadsEntry, Reads, decode, ← ih, List.cons.injEq]
      constructor
      · rintro ⟨value, _, value_ok, rest_ok, rfl, rfl⟩
        exact ⟨⟨rfl, value_ok⟩, rest_ok⟩
      · rintro ⟨⟨sameKey, value_ok⟩, rest_ok⟩
        exact ⟨entry.2, entries, value_ok, rest_ok, Prod.ext sameKey rfl, rfl⟩

theorem decodeFields_eq_ok_iff {members shapes fields} :
    decodeFields (members.map fun (key, json) => (key, decoder schema json)) shapes = .ok fields ↔
      List.Forall₂ (ReadsField schema members) shapes fields := by
  induction shapes generalizing fields with
  | nil => cases fields <;> simp [decodeFields]
  | cons asked rest ih =>
    obtain ⟨key, shape⟩ := asked
    rw [decodeFields_cons_eq_ok_iff, Members.find?_map]
    cases fields with
    | nil => simp
    | cons field fields =>
      simp only [List.forall₂_cons, ReadsField, ReadsUnder, Reads, decode, Option.map_eq_some_iff, ← ih,
        List.cons.injEq]
      constructor
      · rintro ⟨_, value, _, ⟨part, found, rfl⟩, value_ok, rest_ok, rfl, rfl⟩
        exact ⟨⟨rfl, part, found, value_ok⟩, rest_ok⟩
      · rintro ⟨⟨sameKey, part, found, value_ok⟩, rest_ok⟩
        exact ⟨_, field.2, fields, ⟨part, found, rfl⟩, value_ok, rest_ok, Prod.ext sameKey rfl, rfl⟩

theorem decode_list_eq_ok_iff {items : List Json} {value : Datum} :
    (array items).decode schema (.list shape) = .ok value ↔
      ∃ values, List.Forall₂ (Reads schema shape) items values ∧ .list values = value := by
  simp only [decode_list, map_eq_ok_iff, decodeItems_eq_ok_iff]

theorem decode_map_eq_ok_iff {order : KeyOrder} {members : List (String × Json)} {value : Datum} :
    (object members).decode schema (.map order shape) = .ok value ↔
      ∃ entries, List.Forall₂ (ReadsEntry schema shape) members entries ∧
        mapOfEntries order entries = value := by
  simp only [decode_map, map_eq_ok_iff, decodeEntries_eq_ok_iff]

theorem decode_record_eq_ok_iff {name : String} {members : List (String × Json)} {value : Datum} :
    (object members).decode schema (.record name) = .ok value ↔
      ∃ fields, List.Forall₂ (ReadsField schema members) (schema.fields name) fields ∧
        .record fields = value := by
  simp only [decode_record, map_eq_ok_iff, decodeFields_eq_ok_iff]

end Json

end CombinatorJson
