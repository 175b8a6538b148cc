import CombinatorJson.Proofs.Characters
import CombinatorJson.Proofs.Typed.Located

set_option autoImplicit false

namespace CombinatorJson

/-- A key that a path shows as one word. -/
def IsName (key : String) : Prop :=
  key ≠ "" ∧ '.' ∉ key.toList ∧ '[' ∉ key.toList

def Step.chars : Step → List Char
  -- With a point before every key, also the first.
  | .key name => '.' :: name.toList
  | .index position => '[' :: (Nat.toDigits 10 position ++ [']'])

namespace ConversionError

def NamedKeys (error : ConversionError) : Prop :=
  ∀ key, .key key ∈ error.steps → IsName key

def inName (c : Char) : Bool :=
  c != '.' && c != '['

def readSteps : List Char → List Step
  | [] => []
  | '[' :: rest =>
    .index (Nat.ofDigitChars 10 (rest.takeWhile (· != ']')) 0) ::
      readSteps ((rest.dropWhile (· != ']')).drop 1)
  | _ :: rest => .key (String.ofList (rest.takeWhile inName)) :: readSteps (rest.dropWhile inName)
termination_by text => text.length
decreasing_by
  · have shorter := (List.dropWhile_suffix (· != ']') (l := rest)).length_le
    simp only [List.length_drop, List.length_cons]
    omega
  · have shorter := (List.dropWhile_suffix inName (l := rest)).length_le
    simp only [List.length_cons]
    omega

def readPath (text : List Char) : List Step :=
  -- A path that begins with a key has no point before it.
  match text with
  | [] => []
  | '[' :: _ => readSteps text
  | _ => readSteps ('.' :: text)

theorem stopsName (steps : List Step) :
    ∀ c, (steps.flatMap Step.chars).head? = some c → inName c = false := by
  intro c head
  cases steps with
  | nil => contradiction
  | cons step rest =>
    cases step <;>
      · obtain rfl := Option.some.inj head
        rfl

theorem inName_of_isName {key : String} (name : IsName key) : ∀ c ∈ key.toList, inName c = true := by
  intro c known
  have no_point : c ≠ '.' := fun same => name.2.1 (same ▸ known)
  have no_bracket : c ≠ '[' := fun same => name.2.2 (same ▸ known)
  simp [inName, no_point, no_bracket]

theorem readSteps_chars {steps : List Step} (named : ∀ key, .key key ∈ steps → IsName key) :
    readSteps (steps.flatMap Step.chars) = steps := by
  induction steps with
  | nil => simp [readSteps]
  | cons step rest ih =>
    have rest_ok := ih fun key known => named key (List.mem_cons_of_mem step known)
    cases step with
    | key name =>
      have name_ok := inName_of_isName (named name List.mem_cons_self)
      obtain ⟨taken, left⟩ := span_append name_ok (stopsName rest)
      have point : '.' ≠ '[' := by decide
      rw [List.flatMap_cons, Step.chars, List.cons_append, readSteps, taken, left, rest_ok,
        String.ofList_toList]
      exact point
    | index position =>
      have digits : ∀ c ∈ Nat.toDigits 10 position, (c != ']') = true := by
        intro c known
        have digit := Nat.isDigit_of_mem_toDigits (by decide) (by decide) known
        have other : ¬(']').isDigit = true := by decide
        have different : c ≠ ']' := by
          rintro rfl
          exact other digit
        simpa using different
      have stopped : ∀ c, (']' :: rest.flatMap Step.chars).head? = some c → (c != ']') = false := by
        rintro c ⟨⟩
        rfl
      obtain ⟨taken, left⟩ := span_append digits stopped
      rw [List.flatMap_cons, Step.chars, List.cons_append, List.append_assoc, List.singleton_append,
        readSteps, taken, left, List.drop_one, List.tail_cons, rest_ok,
        Nat.ofDigitChars_ten_toDigits]

theorem pathFrom_of_nonempty (error : ConversionError) {path : List Char} (begun : path ≠ []) :
    error.pathFrom path = path ++ error.steps.flatMap Step.chars := by
  induction error generalizing path with
  | inField key inner ih =>
    have longer : path ++ (if path.isEmpty then [] else ['.']) ++ key.toList ≠ [] := by
      simp [begun]
    rw [pathFrom, ih longer, steps, List.flatMap_cons, Step.chars]
    simp [begun]
  | inElement index inner ih =>
    have longer : path ++ '[' :: Nat.toDigits 10 index ++ [']'] ≠ [] := by simp
    rw [pathFrom, ih longer, steps, List.flatMap_cons, Step.chars]
    simp
  | typeMismatch | missingField | numberOutOfRange | custom => simp [pathFrom, steps]

theorem readPath_path {error : ConversionError} (named : error.NamedKeys) :
    readPath error.path.toList = error.steps := by
  rw [path, String.toList_ofList]
  have read := readSteps_chars named
  cases error with
  | inField key inner =>
    have name := named key List.mem_cons_self
    have nonempty : key.toList ≠ [] := mt String.toList_eq_nil_iff.mp name.1
    have first : (inField key inner).pathFrom [] = inner.pathFrom key.toList := by
      simp [pathFrom]
    rw [first, pathFrom_of_nonempty inner nonempty]
    obtain ⟨c, rest, split⟩ := List.exists_cons_of_ne_nil nonempty
    have no_bracket : c ≠ '[' := fun same => name.2.2 (by simp [split, same])
    simpa [readPath, split, steps, Step.chars, no_bracket] using read
  | inElement index inner =>
    have nonempty : '[' :: (Nat.toDigits 10 index ++ [']']) ≠ [] := by simp
    have first : (inElement index inner).pathFrom [] =
        inner.pathFrom ('[' :: (Nat.toDigits 10 index ++ [']'])) := rfl
    rw [first, pathFrom_of_nonempty inner nonempty]
    simpa [readPath, steps, Step.chars] using read
  | typeMismatch | missingField | numberOutOfRange | custom => rfl

end ConversionError

namespace Shape

/-- No map at any depth, records apart. -/
def isMapFree : Shape → Bool
  | option inner => inner.isMapFree
  | list item => item.isMapFree
  | map _ _ => false
  | _ => true

/-- Records that are made of records, lists and options, and have names for their fields. -/
def NamesFields (schema : Schema) : Prop :=
  ∀ name key shape, (key, shape) ∈ schema.fields name → IsName key ∧ shape.isMapFree = true

theorem Asks.isName {schema : Schema} {shape component : Shape} {steps : List Step}
    (asks : shape.Asks schema steps component) (names : NamesFields schema)
    (free : shape.isMapFree = true) : ∀ key, .key key ∈ steps → IsName key := by
  induction asks with
  | here => simp
  | option _ ih => exact ih free
  | item _ ih => simpa using ih free
  | entry => contradiction
  | @field name key shape component steps known _ ih =>
    obtain ⟨named, free⟩ := names name key shape known
    intro other
    rw [List.mem_cons, Step.key.injEq]
    rintro (rfl | later)
    · exact named
    · exact ih free other later

end Shape

theorem Json.namedKeys_of_decode {schema : Schema} {shape : Shape} {json : Json}
    {error : ConversionError} (names : Shape.NamesFields schema) (free : shape.isMapFree = true)
    (unique : json.UniqueKeys) (failed : json.decode schema shape = .error error) :
    error.NamedKeys := by
  obtain ⟨_, _, -, asks, -, -⟩ := locatesErrors_of_uniqueKeys unique shape error failed
  exact asks.isName names free

namespace ConversionError

theorem path_eq_empty_iff {error : ConversionError} (named : error.NamedKeys) :
    error.path = "" ↔ error.steps = [] := by
  constructor
  · intro empty
    rw [← readPath_path named, empty]
    rfl
  · intro bare
    cases error with
    | inField | inElement => contradiction
    | typeMismatch | missingField | numberOutOfRange | custom => rfl

/-- Errors whose keys are names have the same path text only in the same places, and the empty one
only at the root. The errors of record types are such errors. -/
theorem path_unambiguous :
    (∀ left right : ConversionError, left.NamedKeys → right.NamedKeys → left.path = right.path →
      left.steps = right.steps) ∧
    (∀ error : ConversionError, error.NamedKeys → (error.path = "" ↔ error.steps = [])) ∧
    ∀ (schema : Schema) (shape : Shape) (json : Json) (error : ConversionError),
      Shape.NamesFields schema → shape.isMapFree = true → json.UniqueKeys →
      json.decode schema shape = .error error → error.NamedKeys := by
  refine ⟨fun left right left_ok right_ok same => ?_, fun _ => path_eq_empty_iff,
    fun _ _ _ _ => Json.namedKeys_of_decode⟩
  rw [← readPath_path left_ok, ← readPath_path right_ok, same]

def folderSchema : Schema :=
  [("folder", [("tags", .list (.option .bool)), ("parent", .option (.record "folder"))])]

def folder : Json :=
  -- The second tag of the parent is no truth value.
  .object [("tags", .array []),
    ("parent", .object [("parent", .null), ("tags", .array [.null, .string "new"])])]

def untrue : ConversionError :=
  .inField "parent" (.inField "tags" (.inElement 1 (.typeMismatch "bool" "string")))

def unnamed : ConversionError :=
  .inField "parent" (.inField "tags" (.inElement 1 (.missingField "name")))

theorem folder_names : Shape.NamesFields folderSchema := by
  intro name key shape known
  by_cases folder : "folder" = name
  · subst folder
    have fields : (key, shape) = ("tags", .list (.option .bool)) ∨
        (key, shape) = ("parent", .option (.record "folder")) := by
      simpa [Schema.fields, folderSchema, Members.find?] using known
    rcases fields with same | same <;> cases same <;> simp [IsName, Shape.isMapFree]
  · simp [Schema.fields, folderSchema, Members.find?, folder] at known

theorem folder_unique : folder.UniqueKeys := by
  have tags : (Json.array [.null, .string "new"]).UniqueKeys :=
    .array (by simpa using ⟨.null, .string "new"⟩)
  have parent : (Json.object [("parent", .null),
      ("tags", .array [.null, .string "new"])]).UniqueKeys :=
    .object (by decide) (by simpa using ⟨.null, tags⟩)
  have none : (Json.array []).UniqueKeys := .array (by simp)
  exact .object (by decide) (by simpa using ⟨none, parent⟩)

theorem path_unambiguous_folder :
    Shape.NamesFields folderSchema ∧ Shape.isMapFree (.record "folder") = true ∧
      folder.UniqueKeys ∧ folder.decode folderSchema (.record "folder") = .error untrue ∧
      untrue.NamedKeys ∧ (untrue.path = "" ↔ untrue.steps = []) ∧
      unnamed.NamedKeys ∧ untrue.path = unnamed.path ∧ untrue.steps = unnamed.steps := by
  have failed : folder.decode folderSchema (.record "folder") = .error untrue := by rfl
  have named := path_unambiguous.2.2 _ _ _ _ folder_names rfl folder_unique failed
  have named' : unnamed.NamedKeys := by simp [NamedKeys, unnamed, steps, IsName]
  have shown : untrue.path = unnamed.path := by decide
  exact ⟨folder_names, rfl, folder_unique, failed, named, path_unambiguous.2.1 untrue named, named',
    shown, path_unambiguous.1 untrue unnamed named named' shown⟩

end ConversionError

end CombinatorJson
