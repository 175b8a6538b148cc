import CombinatorJson.Proofs.Grammar.Written

set_option autoImplicit false

namespace CombinatorJson

namespace Json

structure Plain (json : Json) : Prop where
  unique : json.UniqueKeys
  free : json.NaNFree

theorem plain_array {items : List Json} (items_ok : ∀ item ∈ items, item.Plain) :
    (array items).Plain :=
  ⟨.array fun item known => (items_ok item known).unique,
    .array fun item known => (items_ok item known).free⟩

theorem plain_ofPairs {pairs : List (String × Json)} (pairs_ok : ∀ pair ∈ pairs, pair.2.Plain) :
    (ofPairs pairs).Plain := by
  have members_ok : ∀ member ∈ Members.ofPairs pairs, member.2.Plain :=
    fun member known => pairs_ok member (Members.mem_of_mem_ofPairs known)
  constructor
  · exact .object (Members.unique_ofPairs pairs) fun member known => (members_ok member known).unique
  · exact .object fun member known => (members_ok member known).free

theorem Plain.item {items : List Json} (plain : (array items).Plain) :
    ∀ item ∈ items, item.Plain :=
  fun item known => ⟨uniqueKeys_array_iff.mp plain.unique item known,
    nanFree_array_iff.mp plain.free item known⟩

theorem Plain.member {members : List (String × Json)} (plain : (object members).Plain) :
    ∀ member ∈ members, member.2.Plain :=
  fun member known => ⟨(uniqueKeys_object_iff.mp plain.unique).2 member known,
    nanFree_object_iff.mp plain.free member known⟩

end Json

namespace Grammar

-- By induction on derivations. An overflowing literal is an infinity, so no literal denotes a NaN.
mutual

theorem ValueText.plain {text : List Char} {value : Json} : ValueText text value → value.Plain
  | .null => ⟨.null, .null⟩
  | .true => ⟨.bool _, .bool _⟩
  | .false => ⟨.bool _, .bool _⟩
  | .number _ => ⟨.number _, .number nofun⟩
  | .string _ => ⟨.string _, .string _⟩
  | .emptyArray _ => Json.plain_array nofun
  | .array _ items_ok => Json.plain_array items_ok.plain
  | .emptyObject _ => ⟨.object List.nodup_nil nofun, .object nofun⟩
  | .object _ pairs_ok merged => by
    rw [merged.eq_ofPairs]
    exact Json.plain_ofPairs pairs_ok.plain

theorem ItemText.plain {text : List Char} {value : Json} : ItemText text value → value.Plain
  | .mk value_ok _ => value_ok.plain

theorem ItemsText.plain {text : List Char} {values : List Json} :
    ItemsText text values → ∀ value ∈ values, value.Plain
  | .last item_ok => by simpa using item_ok.plain
  | .more item_ok _ rest_ok => List.forall_mem_cons.mpr ⟨item_ok.plain, rest_ok.plain⟩

theorem PairText.plain {text : List Char} {pair : String × Json} :
    PairText text pair → pair.2.Plain
  | .mk _ _ _ item_ok => item_ok.plain

theorem PairsText.plain {text : List Char} {pairs : List (String × Json)} :
    PairsText text pairs → ∀ pair ∈ pairs, pair.2.Plain
  | .last pair_ok => by simpa using pair_ok.plain
  | .more pair_ok _ rest_ok => List.forall_mem_cons.mpr ⟨pair_ok.plain, rest_ok.plain⟩

end

theorem DocumentText.plain {text : List Char} {value : Json} : DocumentText text value → value.Plain
  | .mk _ value_ok _ => value_ok.plain

end Grammar

namespace Json

open CombinatorJson.Grammar

theorem plain_of_parse {text : String} {json : Json} (parsed : parse text = .ok json) :
    json.Plain :=
  (documentText_of_parse parsed).plain

end Json

end CombinatorJson
