set_option autoImplicit false

namespace CombinatorJson

abbrev Members (α : Type) := List (String × α)

namespace Members

variable {α : Type}

def keys (members : Members α) : List String :=
  members.map Prod.fst

def find? (key : String) : Members α → Option α
  | [] => none
  | (candidate, value) :: rest => if candidate = key then some value else find? key rest

def insert (key : String) (value : α) : Members α → Members α
  | [] => [(key, value)]
  | (candidate, old) :: rest =>
    if candidate = key then (key, value) :: rest else (candidate, old) :: insert key value rest

theorem find?_insert (sought key : String) (value : α) (members : Members α) :
    (insert key value members).find? sought =
      if key = sought then some value else members.find? sought := by
  induction members with
  | nil => rfl
  | cons member rest ih =>
    obtain ⟨candidate, old⟩ := member
    by_cases same : candidate = key
    · by_cases hit : key = sought <;> simp [insert, find?, same, hit]
    · by_cases hit : candidate = sought
      · subst hit
        simp [insert, find?, same, Ne.symm same]
      · simp [insert, find?, same, hit, ih]

def insertSorted (key : String) (value : α) : Members α → Members α
  | [] => [(key, value)]
  | (candidate, old) :: rest =>
    if candidate = key then
      (key, value) :: rest
    else if key < candidate then
      (key, value) :: (candidate, old) :: rest
    else
      (candidate, old) :: insertSorted key value rest

def ofPairs (pairs : List (String × α)) : Members α :=
  pairs.foldl (fun members (key, value) => insert key value members) []

/-- The members in the order of their keys, which is that of the keys' UTF-8 bytes, each with its
last value. -/
def sortedOfPairs (pairs : List (String × α)) : Members α :=
  pairs.foldl (fun members (key, value) => insertSorted key value members) []

end Members

end CombinatorJson
