import CombinatorJson.Proofs.Typed.RoundTrip

set_option autoImplicit false

namespace CombinatorJson

variable {schema : Schema} {shape : Shape} {datum : Datum}

namespace Datum

inductive HasPart : Datum → Datum → Prop where
  | self (datum : Datum) : HasPart datum datum
  | present {value part : Datum} (within : HasPart value part) : HasPart (.present value) part
  | item {items : List Datum} {item part : Datum} (known : item ∈ items)
      (within : HasPart item part) : HasPart (.list items) part
  | entry {entries : List (String × Datum)} {entry : String × Datum} {part : Datum}
      (known : entry ∈ entries) (within : HasPart entry.2 part) : HasPart (.map entries) part
  | field {fields : List (String × Datum)} {field : String × Datum} {part : Datum}
      (known : field ∈ fields) (within : HasPart field.2 part) : HasPart (.record fields) part

theorem HasPart.trans {whole middle part : Datum} (first : whole.HasPart middle)
    (second : middle.HasPart part) : whole.HasPart part := by
  induction first with
  | self => exact second
  | present _ ih => exact .present (ih second)
  | item known _ ih => exact .item known (ih second)
  | entry known _ ih => exact .entry known (ih second)
  | field known _ ih => exact .field known (ih second)

theorem Intact.part {part : Datum} (intact : datum.Intact) (within : datum.HasPart part) :
    part.Intact := by
  induction within with
  | self => exact intact
  | present _ ih =>
    cases intact with
    | present value_ok _ => exact ih value_ok
  | item known _ ih => exact ih (intact_list_iff.mp intact _ known)
  | entry known _ ih => exact ih (intact_map_iff.mp intact _ known)
  | field known _ ih => exact ih (intact_record_iff.mp intact _ known)

def NaNFree (datum : Datum) : Prop :=
  ¬ datum.HasPart (.double .nan) ∧ ¬ datum.HasPart (.single .nan) ∧
    ∀ tree, datum.HasPart (.json tree) → tree.NaNFree

/-- In an option these look as if it held nothing. -/
def hidden : List Datum :=
  [.absent, .unit, .json .null]

def HoldsNone (contents : List Datum) (datum : Datum) : Prop :=
  ∀ held ∈ contents, ¬ datum.HasPart (.present held)

theorem NaNFree.part {part : Datum} (free : datum.NaNFree) (within : datum.HasPart part) :
    part.NaNFree := by
  obtain ⟨noDouble, noSingle, trees⟩ := free
  exact ⟨fun deeper => noDouble (within.trans deeper), fun deeper => noSingle (within.trans deeper),
    fun tree deeper => trees tree (within.trans deeper)⟩

theorem HoldsNone.part {contents : List Datum} {part : Datum} (shown : datum.HoldsNone contents)
    (within : datum.HasPart part) : part.HoldsNone contents :=
  fun held listed deeper => shown held listed (within.trans deeper)

theorem toJson_of_hidden (listed : datum ∈ hidden) : datum.toJson = .null := by
  simp only [hidden, List.mem_cons, List.not_mem_nil, or_false] at listed
  obtain rfl | rfl | rfl := listed <;> rfl

theorem Intact.mem_hidden (intact : datum.Intact) (null : datum.toJson = .null) :
    datum ∈ hidden := by
  cases intact with
  | unit | absent => simp [hidden]
  | json =>
    rw [toJson] at null
    simp [hidden, null]
  -- A second option inside would have to be hidden in turn, so it is not intact.
  | present _ shown => exact absurd null shown
  | _ => contradiction

theorem Intact.naNFree (intact : datum.Intact) : datum.NaNFree := by
  constructor
  · intro missing
    cases intact.part missing with
    | double real => exact real rfl
  constructor
  · intro missing
    cases intact.part missing with
    | single real => exact real rfl
  · intro tree within
    cases intact.part within with
    | json free => exact free

theorem Intact.holdsNone (intact : datum.Intact) : datum.HoldsNone hidden := by
  intro held listed within
  cases intact.part within with
  | present _ shown => exact shown (toJson_of_hidden listed)

theorem intact_iff (shaped : HasShape schema shape datum) :
    datum.Intact ↔ datum.NaNFree ∧ datum.HoldsNone hidden := by
  constructor
  · intro intact
    exact ⟨intact.naNFree, intact.holdsNone⟩
  · intro ⟨free, shown⟩
    induction shaped with
    | unit => exact .unit
    | bool value => exact .bool value
    | double value => exact .double fun missing => free.1 (missing ▸ .self _)
    | single value => exact .single fun missing => free.2.1 (missing ▸ .self _)
    | integer => exact .integer _
    | text value => exact .text value
    | char value => exact .char value
    | json => exact .json (free.2.2 _ (.self _))
    | absent => exact .absent
    | @present _ value _ ih =>
      have within : value.present.HasPart value := .present (.self value)
      have intact := ih (free.part within) (shown.part within)
      exact .present intact fun null => shown value (intact.mem_hidden null) (.self _)
    | list _ ih =>
      apply Intact.list
      intro item known
      have within := HasPart.item known (.self item)
      exact ih item known (free.part within) (shown.part within)
    | map _ _ ih =>
      apply Intact.map
      intro entry known
      have within := HasPart.entry known (.self entry.2)
      exact ih entry known (free.part within) (shown.part within)
    | record named _ ih =>
      apply Intact.record
      rw [← forall_mem_zip_left (length_of_named named)]
      intro pair paired
      have within := HasPart.field (List.of_mem_zip paired).1 (.self pair.1.2)
      exact ih pair paired (free.part within) (shown.part within)

end Datum

theorem read_same_iff (unique : datum.toJson.UniqueKeys) :
    (∃ result, decode schema shape (encode datum) = .ok result ∧
      Datum.Same schema shape result datum) ↔
    decode schema shape (encode datum) = .ok (datum.settled schema shape) := by
  constructor
  · intro ⟨result, read, same⟩
    rw [read, ← same, settled_of_read unique read]
  · intro read
    exact ⟨_, read, settled_of_read unique read⟩

theorem decode_encode_iff_holdsNone (schema_ok : schema.IsEncodable)
    (shape_ok : shape.isEncodable = true) (shaped : HasShape schema shape datum) :
    (∃ result, decode schema shape (encode datum) = .ok result ∧
      Datum.Same schema shape result datum) ↔
    datum.NaNFree ∧ datum.HoldsNone [.absent, .unit, .json .null] := by
  rw [read_same_iff (shaped.uniqueKeys schema_ok),
    decode_encode_settled schema_ok shape_ok shaped]
  exact Datum.intact_iff shaped

theorem decode_encode_some_some :
    ∃ result, decode [] (.option (.option .text)) (encode (.present (.present (.text "null")))) =
        .ok result ∧
      Datum.Same [] (.option (.option .text)) result (.present (.present (.text "null"))) := by
  have schema_ok : Schema.IsEncodable [] := ⟨nofun, nofun⟩
  have shaped : HasShape [] (.option (.option .text)) (.present (.present (.text "null"))) :=
    .present (.present (.text "null"))
  apply (decode_encode_iff_holdsNone schema_ok rfl shaped).mpr
  have intact : (Datum.present (.present (.text "null"))).Intact :=
    .present (.present (.text "null") nofun) nofun
  exact (Datum.intact_iff shaped).mp intact

/-- That no option holds an empty one is not enough. -/
theorem decode_encode_some_unit :
    ¬ ∀ (schema : Schema) (shape : Shape) (datum : Datum), schema.IsEncodable →
      shape.isEncodable = true → HasShape schema shape datum → datum.NaNFree →
      datum.HoldsNone [.absent] →
      ∃ result, decode schema shape (encode datum) = .ok result ∧
        Datum.Same schema shape result datum := by
  intro always
  have parts (part : Datum) (within : (Datum.present .unit).HasPart part) :
      part = .present .unit ∨ part = .unit := by
    cases within with
    | self => exact .inl rfl
    | present deeper =>
      cases deeper
      exact .inr rfl
  have free : (Datum.present .unit).NaNFree :=
    ⟨fun within => by simpa using parts _ within, fun within => by simpa using parts _ within,
      fun tree within => by simpa using parts _ within⟩
  have shown : (Datum.present .unit).HoldsNone [.absent] := by
    intro held listed within
    cases List.mem_singleton.mp listed
    simpa using parts _ within
  obtain ⟨result, read, same⟩ :=
    always [] (.option .unit) (.present .unit) ⟨nofun, nofun⟩ rfl (.present .unit) free shown
  -- The text is `null`, and `null` is read as the empty option.
  have empty : decode [] (.option .unit) (encode (.present .unit)) = .ok .absent :=
    decode_encode_eq (.null : (Datum.present .unit).toJson.UniqueKeys)
  rw [empty] at read
  cases read
  contradiction

end CombinatorJson
