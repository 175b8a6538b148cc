import CombinatorJson.Proofs.Typed.Pointwise
import CombinatorJson.Proofs.Typed.Rearranged
import Mathlib.Data.List.Perm.Basic

set_option autoImplicit false

namespace CombinatorJson

namespace Json

variable {schema : Schema} {shape : Shape}

/-- What the one tree is read as, the other is read as too; errors may differ. -/
def Agrees (schema : Schema) (shape : Shape) (left right : Json) : Prop :=
  ∀ value, Reads schema shape left value ↔ Reads schema shape right value

variable {left middle right : Json}

theorem Agrees.trans (first : Agrees schema shape left middle)
    (second : Agrees schema shape middle right) : Agrees schema shape left right :=
  fun value => (first value).trans (second value)

theorem agrees_option {inner : Shape} (sameNull : left.isNull = right.isNull)
    (same : Agrees schema inner left right) : Agrees schema (.option inner) left right := by
  intro value
  rw [Reads, Reads, decode_option, decode_option, sameNull]
  split
  · rfl
  · simp only [map_eq_ok_iff]
    exact exists_congr fun held => and_congr_left fun _ => same held

theorem agrees_item {item : Shape} (before after : List Json)
    (part : Agrees schema item left right) :
    Agrees schema (.list item) (.array (before ++ left :: after))
      (.array (before ++ right :: after)) := by
  intro value
  simp only [Reads, decode_list_eq_ok_iff, related_replace before after part]

theorem agrees_entry {order : KeyOrder} (before after : List (String × Json)) (key : String)
    (part : Agrees schema shape left right) :
    Agrees schema (.map order shape) (.object (before ++ (key, left) :: after))
      (.object (before ++ (key, right) :: after)) := by
  intro value
  have part' (entry) : ReadsEntry schema shape (key, left) entry ↔
      ReadsEntry schema shape (key, right) entry :=
    and_congr_right fun _ => part entry.2
  simp only [Reads, decode_map_eq_ok_iff, related_replace before after part']

theorem agrees_record {name : String} {members others : List (String × Json)}
    (same : ∀ asked ∈ schema.fields name, ∀ value,
      ReadsUnder schema members asked value ↔ ReadsUnder schema others asked value) :
    Agrees schema (.record name) (.object members) (.object others) := by
  -- Records are read from what is found under the keys that they ask for, and from nothing else.
  intro value
  have fields_ok : ∀ asked ∈ schema.fields name, ∀ field,
      ReadsField schema members asked field ↔ ReadsField schema others asked field :=
    fun asked known field => and_congr_right fun _ => same asked known field.2
  simp only [Reads, decode_record_eq_ok_iff, related_congr fields_ok]

theorem readsUnder_replace {key : String} {asked : String × Shape}
    (before after : List (String × Json))
    (part : asked.1 = key → Agrees schema asked.2 left right) (value : Datum) :
    ReadsUnder schema (before ++ (key, left) :: after) asked value ↔
      ReadsUnder schema (before ++ (key, right) :: after) asked value := by
  unfold ReadsUnder
  rw [Members.find?_append, Members.find?_append, Members.find?, Members.find?]
  cases Members.find? asked.1 before with
  | some found => rfl
  | none =>
    split
    · next same => simpa using part same.symm value
    · rfl

theorem readsUnder_unlisted {key : String} {asked : String × Shape} {json : Json}
    (before after : List (String × Json)) (other : asked.1 ≠ key) (value : Datum) :
    ReadsUnder schema (before ++ (key, json) :: after) asked value ↔
      ReadsUnder schema (before ++ after) asked value := by
  unfold ReadsUnder
  rw [Members.find?_append, Members.find?_append, Members.find?, if_neg other.symm]

theorem agrees_unlisted {name key : String} {json : Json} (before after : List (String × Json))
    (unlisted : key ∉ Members.keys (schema.fields name)) :
    Agrees schema (.record name) (.object (before ++ (key, json) :: after))
      (.object (before ++ after)) := by
  apply agrees_record
  intro asked known value
  have other : asked.1 ≠ key := fun same => unlisted (same ▸ List.mem_map_of_mem known)
  exact readsUnder_unlisted before after other value

theorem agrees_permuted_record {name : String} {members others : List (String × Json)}
    (unique : (Members.keys members).Nodup) (permuted : members.Perm others) :
    Agrees schema (.record name) (.object members) (.object others) := by
  apply agrees_record
  intro asked known value
  rw [ReadsUnder, ReadsUnder, Members.find?_perm permuted unique]

theorem reads_permuted_map {members others : List (String × Json)} {value : Datum}
    (unique : (Members.keys members).Nodup) (permuted : members.Perm others)
    (read : Reads schema (.map .sorted shape) (.object members) value) :
    Reads schema (.map .sorted shape) (.object others) value := by
  obtain ⟨entries, entries_ok, rfl⟩ := decode_map_eq_ok_iff.mp read
  -- The entries are permuted along with the members, and sorting undoes that.
  obtain ⟨others', others_ok, permuted'⟩ := List.perm_comp_forall₂ permuted.symm entries_ok
  have sameKeys := keys_of_related (fun _ _ entry_ok => entry_ok.1) entries_ok
  have unique' : (Members.keys entries).Nodup := sameKeys ▸ unique
  refine decode_map_eq_ok_iff.mpr ⟨others', others_ok, ?_⟩
  exact congrArg Datum.map (Members.sortedOfPairs_perm permuted'.symm unique').symm

theorem agrees_permuted_map {members others : List (String × Json)}
    (unique : (Members.keys members).Nodup) (permuted : members.Perm others) :
    Agrees schema (.map .sorted shape) (.object members) (.object others) := by
  intro value
  constructor
  · exact reads_permuted_map unique permuted
  · exact reads_permuted_map (Members.unique_perm permuted unique) permuted.symm

theorem agrees_array {items others : List Json}
    (lists : ∀ item : Shape, item.OrderFree schema →
      Agrees schema (.list item) (.array items) (.array others))
    (free : shape.OrderFree schema) : Agrees schema shape (.array items) (.array others) := by
  induction shape with
  | json => exact free.not_json.elim
  | option inner ih => exact agrees_option rfl (ih free.option)
  | list item => exact lists item free.list
  | _ => exact fun _ => ⟨nofun, nofun⟩

theorem agrees_object {members others : List (String × Json)}
    (maps : ∀ value : Shape, value.OrderFree schema →
      Agrees schema (.map .sorted value) (.object members) (.object others))
    (records : ∀ name, (Shape.record name).OrderFree schema →
      Agrees schema (.record name) (.object members) (.object others))
    (free : shape.OrderFree schema) : Agrees schema shape (.object members) (.object others) := by
  induction shape with
  | json => exact free.not_json.elim
  | option inner ih => exact agrees_option rfl (ih free.option)
  | map order value =>
    cases order with
    | insertion => exact free.not_insertion.elim
    | sorted => exact maps value free.map
  | record name => exact records name free
  | _ => exact fun _ => ⟨nofun, nofun⟩

theorem Reordered.agrees (reordered : Reordered left right) (unique : left.UniqueKeys)
    (free : shape.OrderFree schema) : Agrees schema shape left right := by
  induction reordered generalizing shape with
  | refl => exact fun _ => Iff.rfl
  | trans first _ ih ih' => exact (ih unique free).trans (ih' (first.uniqueKeys unique) free)
  | members permuted =>
    have unique' := (uniqueKeys_object_iff.mp unique).1
    exact agrees_object (fun _ _ => agrees_permuted_map unique' permuted)
      (fun _ _ => agrees_permuted_record unique' permuted) free
  | item before after _ ih =>
    have unique' := uniqueKeys_array_iff.mp unique _ List.mem_append_cons_self
    exact agrees_array (fun item free => agrees_item before after (ih unique' free)) free
  | member before after key _ ih =>
    have unique' := (uniqueKeys_object_iff.mp unique).2 _ List.mem_append_cons_self
    refine agrees_object (fun value free => agrees_entry before after key (ih unique' free)) ?_ free
    intro name free
    apply agrees_record
    intro asked known
    exact readsUnder_replace before after fun _ => ih unique' (free.field known)

theorem decode_rearranged (schema_ok : ∀ record ∈ schema, (Members.keys record.2).Nodup)
    (unique : left.UniqueKeys) (free : shape.OrderFree schema)
    (rearranged : Rearranged schema shape left right) (value : Datum) :
    left.decode schema shape = .ok value ↔ right.decode schema shape = .ok value := by
  suffices agrees : Agrees schema shape left right from agrees value
  induction rearranged with
  | reordered same => exact same.agrees unique free
  | trans first _ ih ih' => exact (ih unique free).trans (ih' (first.uniqueKeys unique) free)
  | added before after unlisted => exact fun v => (agrees_unlisted before after unlisted v).symm
  | removed before after unlisted => exact agrees_unlisted before after unlisted
  | option same ih => exact agrees_option same.isNull_eq (ih unique free.option)
  | item before after _ ih =>
    have unique' := uniqueKeys_array_iff.mp unique _ List.mem_append_cons_self
    exact agrees_item before after (ih unique' free.list)
  | entry before after key _ ih =>
    have unique' := (uniqueKeys_object_iff.mp unique).2 _ List.mem_append_cons_self
    exact agrees_entry before after key (ih unique' free.map)
  | @field name key shape left right before after listed _ ih =>
    have unique' := (uniqueKeys_object_iff.mp unique).2 _ List.mem_append_cons_self
    apply agrees_record
    intro ⟨asked, shape'⟩ known
    apply readsUnder_replace before after
    intro same
    -- A record asks for a key once, so the parts are related in the shape that is asked of them.
    have fields_ok := Schema.fields_nodup schema_ok name
    have found := Members.find?_of_mem fields_ok listed
    have found' := Members.find?_of_mem fields_ok known
    rw [same, found] at found'
    cases found'
    exact ih unique' (free.field listed)

def tagSchema : Schema :=
  [("Tagged", [("open", .bool), ("tags", .map .sorted .text)])]

theorem orderFree_tagged : (Shape.record "Tagged").OrderFree tagSchema := by
  have fields : tagSchema.fields "Tagged" = [("open", .bool), ("tags", .map .sorted .text)] := rfl
  intro steps component asks
  cases asks with
  | here => simp
  | field known deeper =>
    simp only [fields, List.mem_cons, Prod.mk.injEq, List.not_mem_nil, or_false] at known
    obtain ⟨-, rfl⟩ | ⟨-, rfl⟩ := known
    · cases deeper
      simp
    · cases deeper with
      | here => simp
      | entry deepest =>
        cases deepest
        simp

def tagsDown : Json :=
  .object [("b", .string "2"), ("a", .string "1")]

def tagsUp : Json :=
  .object [("a", .string "1"), ("b", .string "2")]

def taggedDatum : Datum :=
  .record [("open", .bool true), ("tags", .map [("a", .text "1"), ("b", .text "2")])]

theorem decode_rearranged_tagged :
    (object [("open", .bool true), ("tags", tagsDown)]).decode tagSchema (.record "Tagged") =
        .ok taggedDatum ∧
      (object [("tags", tagsUp), ("note", .null), ("open", .bool true)]).decode tagSchema
          (.record "Tagged") = .ok taggedDatum := by
  have schema_ok : ∀ record ∈ tagSchema, (Members.keys record.2).Nodup := by decide
  have tags_unique : tagsDown.UniqueKeys :=
    .object (by decide) (by simpa using ⟨.string "2", .string "1"⟩)
  have unique : (object [("open", .bool true), ("tags", tagsDown)]).UniqueKeys :=
    .object (by simp [Members.keys]) (by simpa using ⟨.bool true, tags_unique⟩)
  have listed : ("tags", .map .sorted .text) ∈ tagSchema.fields "Tagged" := by decide
  have unlisted : "note" ∉ Members.keys (tagSchema.fields "Tagged") := by decide
  have tags : Rearranged tagSchema (.record "Tagged")
      (object [("open", .bool true), ("tags", tagsDown)])
      (object [("open", .bool true), ("tags", tagsUp)]) :=
    .field [("open", .bool true)] [] listed (.reordered (.members (.swap ..)))
  have fields : Rearranged tagSchema (.record "Tagged")
      (object [("open", .bool true), ("tags", tagsUp)])
      (object [("tags", tagsUp), ("open", .bool true)]) :=
    .reordered (.members (.swap ..))
  have note : Rearranged tagSchema (.record "Tagged")
      (object [("tags", tagsUp), ("open", .bool true)])
      (object [("tags", tagsUp), ("note", .null), ("open", .bool true)]) :=
    .added [("tags", tagsUp)] [("open", .bool true)] unlisted (by simp [Members.keys]) .null
  have read : (object [("open", .bool true), ("tags", tagsDown)]).decode tagSchema
      (.record "Tagged") = .ok taggedDatum := rfl
  have same := decode_rearranged schema_ok unique orderFree_tagged (.trans tags (.trans fields note))
  exact ⟨read, (same _).mp read⟩

end Json

end CombinatorJson
