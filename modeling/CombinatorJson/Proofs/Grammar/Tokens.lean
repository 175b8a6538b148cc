import CombinatorJson.Proofs.Grammar.Derivation
import CombinatorJson.Proofs.Tree

set_option autoImplicit false

namespace CombinatorJson

namespace Json

mutual

/-- Numbers and strings are one token each. -/
def tokens : Json → List (List Char)
  | null => ["null".toList]
  | bool value => [if value then "true".toList else "false".toList]
  | number value => [numberChars value]
  | string value => [stringChars value]
  | array items => ['['] :: ([[',']].intercalate (itemTokens items) ++ [[']']])
  | object members => ['{'] :: ([[',']].intercalate (memberTokens members) ++ [['}']])

def itemTokens : List Json → List (List (List Char))
  | [] => []
  | item :: rest => tokens item :: itemTokens rest

def memberTokens : List (String × Json) → List (List (List Char))
  | [] => []
  | (key, value) :: rest => (stringChars key :: [':'] :: tokens value) :: memberTokens rest

end

theorem itemTokens_eq_map (items : List Json) : itemTokens items = items.map tokens :=
  eq_map_of_cons rfl (fun _ _ => rfl) items

theorem memberTokens_eq_map (members : List (String × Json)) :
    memberTokens members =
      members.map fun member => stringChars member.1 :: [':'] :: member.2.tokens :=
  eq_map_of_cons rfl (fun _ _ => rfl) members

theorem flatten_intercalate (separator : List (List Char)) (parts : List (List (List Char))) :
    (separator.intercalate parts).flatten =
      separator.flatten.intercalate (parts.map List.flatten) := by
  induction parts with
  | nil => rfl
  | cons first rest ih =>
    cases rest with
    | nil => simp
    | cons second rest => simp [List.intercalate_cons_cons, ih]

theorem flatten_tokens (json : Json) : json.tokens.flatten = json.chars := by
  induction json using inductionOn with
  | null => rfl
  | bool value => simp [tokens, chars]
  | number value => simp [tokens, chars]
  | string value => simp [tokens, chars]
  | array items ih =>
    have parts : items.map (fun item => item.tokens.flatten) = items.map chars :=
      List.map_congr_left ih
    simp [tokens, chars, itemTokens_eq_map, itemChars_eq_map, flatten_intercalate,
      Function.comp_def, parts]
  | object members ih =>
    have parts : members.map (fun member => stringChars member.1 ++ ':' :: member.2.tokens.flatten) =
        members.map fun member => stringChars member.1 ++ ':' :: member.2.chars :=
      List.map_congr_left fun member known => by rw [ih member known]
    simp [tokens, chars, memberTokens_eq_map, memberChars_eq_map, flatten_intercalate,
      Function.comp_def, parts]

end Json

namespace Grammar

inductive Spaced : List (List Char) → List Char → Prop where
  | nil {space : List Char} (space_ok : IsWhitespace space) : Spaced [] space
  | cons {space token text : List Char} {tokens : List (List Char)}
      (space_ok : IsWhitespace space) (rest_ok : Spaced tokens text) :
      Spaced (token :: tokens) (space ++ (token ++ text))

theorem spaced_flatten (tokens : List (List Char)) : Spaced tokens tokens.flatten := by
  induction tokens with
  | nil => exact .nil (by simp [IsWhitespace])
  | cons token rest ih =>
    have none : IsWhitespace [] := by simp [IsWhitespace]
    exact .cons none ih

end Grammar

end CombinatorJson
