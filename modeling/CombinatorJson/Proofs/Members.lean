import CombinatorJson.Proofs.Grammar.Derivation

set_option autoImplicit false

namespace CombinatorJson

namespace Members

variable {α : Type}

@[simp] theorem keys_nil : keys ([] : Members α) = [] :=
  rfl

@[simp] theorem keys_cons (member : String × α) (members : Members α) :
    keys (member :: members) = member.1 :: keys members :=
  rfl

@[simp] theorem keys_append (left right : Members α) :
    keys (left ++ right) = keys left ++ keys right :=
  List.map_append

theorem find?_eq_none_iff (key : String) (members : Members α) :
    find? key members = none ↔ key ∉ keys members := by
  induction members with
  | nil => simp [find?]
  | cons member rest ih =>
    by_cases same : member.1 = key
    · simp [find?, same]
    · simp [find?, same, ih, Ne.symm same]

theorem mem_of_find? {key : String} {value : α} {members : Members α}
    (found : find? key members = some value) : (key, value) ∈ members := by
  induction members with
  | nil => contradiction
  | cons member rest ih =>
    rw [find?] at found
    split at found
    · next same =>
      cases found
      exact same ▸ List.mem_cons_self
    · exact List.mem_cons_of_mem _ (ih found)

theorem find?_of_mem {member : String × α} {members : Members α} (unique : (keys members).Nodup)
    (known : member ∈ members) : find? member.1 members = some member.2 := by
  induction members with
  | nil => contradiction
  | cons first rest ih =>
    obtain ⟨fresh, unique⟩ := List.nodup_cons.mp unique
    rw [find?]
    rcases List.mem_cons.mp known with rfl | later
    · simp
    · have different : first.1 ≠ member.1 := fun same => fresh (same ▸ List.mem_map_of_mem later)
      rw [if_neg different, ih unique later]

theorem find?_append (key : String) (left right : Members α) :
    find? key (left ++ right) = (find? key left).or (find? key right) := by
  induction left with
  | nil => rfl
  | cons member rest ih =>
    rw [List.cons_append, find?, find?]
    split
    · rfl
    · exact ih

theorem keys_insert (key : String) (value : α) (members : Members α) :
    keys (insert key value members) =
      if key ∈ keys members then keys members else keys members ++ [key] := by
  induction members with
  | nil => rfl
  | cons member rest ih =>
    obtain ⟨candidate, old⟩ := member
    by_cases same : candidate = key
    · simp [insert, same]
    · by_cases known : key ∈ keys rest <;> simp [insert, same, Ne.symm same, ih, known]

theorem unique_insert {members : Members α} (unique : (keys members).Nodup) (key : String)
    (value : α) : (keys (insert key value members)).Nodup := by
  rw [keys_insert]
  split
  · exact unique
  · next fresh =>
    refine List.nodup_append.mpr ⟨unique, by simp, ?_⟩
    rintro a known b member rfl
    exact fresh (List.mem_singleton.mp member ▸ known)

theorem insert_of_fresh {key : String} {members : Members α} (fresh : key ∉ keys members)
    (value : α) : insert key value members = members ++ [(key, value)] := by
  induction members with
  | nil => rfl
  | cons member rest ih =>
    obtain ⟨candidate, old⟩ := member
    simp only [keys_cons, List.mem_cons, not_or] at fresh
    simp [insert, Ne.symm fresh.1, ih fresh.2]

def insertAll (members : Members α) (pairs : List (String × α)) : Members α :=
  pairs.foldl (fun members (key, value) => insert key value members) members

theorem insertAll_cons (members : Members α) (pair : String × α) (pairs : List (String × α)) :
    insertAll members (pair :: pairs) = insertAll (insert pair.1 pair.2 members) pairs :=
  rfl

theorem ofPairs_eq_insertAll (pairs : List (String × α)) : ofPairs pairs = insertAll [] pairs :=
  rfl

theorem unique_insertAll {members : Members α} (unique : (keys members).Nodup)
    (pairs : List (String × α)) : (keys (insertAll members pairs)).Nodup := by
  induction pairs generalizing members with
  | nil => exact unique
  | cons pair pairs ih => exact ih (unique_insert unique pair.1 pair.2)

theorem find?_insertAll (key : String) (members : Members α) (pairs : List (String × α)) :
    find? key (insertAll members pairs) = (find? key pairs.reverse).or (find? key members) := by
  induction pairs generalizing members with
  | nil => simp [insertAll, find?]
  | cons pair pairs ih =>
    obtain ⟨candidate, value⟩ := pair
    rw [insertAll_cons, ih, List.reverse_cons, find?_append, Option.or_assoc,
      find?_insert]
    by_cases same : candidate = key <;> simp [find?, same]

theorem keys_insertAll (members : Members α) (pairs : List (String × α)) :
    keys (insertAll members pairs) =
      keys members ++ ((keys pairs).filter (· ∉ keys members)).eraseDups := by
  induction pairs generalizing members with
  | nil => simp [insertAll]
  | cons pair pairs ih =>
    obtain ⟨key, value⟩ := pair
    rw [insertAll_cons, ih, keys_insert, keys_cons]
    by_cases known : key ∈ keys members
    · simp [known]
    · have later : (keys pairs).filter (fun other => decide (other ∉ keys members ++ [key])) =
          ((keys pairs).filter (fun other => decide (other ∉ keys members))).filter
            (fun other => !other == key) := by
        rw [List.filter_filter]
        apply List.filter_congr
        intro other _
        by_cases same : other = key <;> simp [same]
      simp only [known, if_false, later, not_false_eq_true, decide_true, List.filter_cons_of_pos,
        List.eraseDups_cons, List.append_assoc, List.singleton_append]

theorem unique_ofPairs (pairs : List (String × α)) : (keys (ofPairs pairs)).Nodup := by
  have empty : (keys ([] : Members α)).Nodup := List.nodup_nil
  exact unique_insertAll empty pairs

theorem merges_ofPairs (pairs : List (String × α)) : Merges pairs (ofPairs pairs) := by
  constructor
  · have all : (keys pairs).filter (fun _ => true) = keys pairs := List.filter_eq_self.mpr fun _ _ => rfl
    simpa [ofPairs_eq_insertAll, all] using keys_insertAll [] pairs
  · intro key
    simpa [ofPairs_eq_insertAll, find?] using find?_insertAll key [] pairs

theorem mem_of_mem_ofPairs {member : String × α} {pairs : List (String × α)}
    (known : member ∈ ofPairs pairs) : member ∈ pairs := by
  have found := find?_of_mem (unique_ofPairs pairs) known
  rw [(merges_ofPairs pairs).2] at found
  exact List.mem_reverse.mp (mem_of_find? found)

theorem eq_of_find? {left right : Members α} (unique : (keys left).Nodup)
    (sameKeys : keys left = keys right) (same : ∀ key, find? key left = find? key right) :
    left = right := by
  -- The first members agree, and by uniqueness neither is found in the tails.
  induction left generalizing right with
  | nil => exact (List.map_eq_nil_iff.mp sameKeys.symm).symm
  | cons member left ih =>
    obtain ⟨key, value⟩ := member
    cases right with
    | nil => simp at sameKeys
    | cons other right =>
      obtain ⟨key', value'⟩ := other
      simp only [keys_cons, List.cons.injEq] at sameKeys
      obtain ⟨rfl, tailKeys⟩ := sameKeys
      obtain ⟨fresh, unique⟩ := List.nodup_cons.mp unique
      have first : value = value' := by simpa [find?] using same key
      have tails : ∀ sought, find? sought left = find? sought right := by
        intro sought
        by_cases hit : key = sought
        · subst hit
          have fresh' : key ∉ keys right := by
            rw [← tailKeys]
            exact fresh
          rw [(find?_eq_none_iff key left).mpr fresh, (find?_eq_none_iff key right).mpr fresh']
        · simpa [find?, hit] using same sought
      rw [first, ih unique tailKeys tails]

theorem Merges.eq_ofPairs {pairs : List (String × α)} {members : Members α}
    (merged : Merges pairs members) : members = ofPairs pairs := by
  have built := merges_ofPairs pairs
  have sameKeys : keys (ofPairs pairs) = keys members := built.1.trans merged.1.symm
  refine (eq_of_find? (unique_ofPairs pairs) sameKeys fun key => ?_).symm
  rw [built.2, merged.2]

theorem insertAll_of_unique (members pairs : Members α)
    (unique : (keys members ++ keys pairs).Nodup) : insertAll members pairs = members ++ pairs := by
  induction pairs generalizing members with
  | nil => simp [insertAll]
  | cons pair pairs ih =>
    obtain ⟨key, value⟩ := pair
    have fresh : key ∉ keys members := by
      intro known
      exact (List.nodup_append.mp unique).2.2 key known key (by simp) rfl
    rw [insertAll_cons, insert_of_fresh fresh, ih]
    · simp
    · simpa using unique

theorem ofPairs_of_unique {pairs : List (String × α)} (unique : (keys pairs).Nodup) :
    ofPairs pairs = pairs := by
  simpa [ofPairs_eq_insertAll] using insertAll_of_unique [] pairs (by simpa using unique)

theorem merges_of_unique {pairs : Members α} (unique : (keys pairs).Nodup) :
    Merges pairs pairs := by
  have merged := merges_ofPairs pairs
  rwa [ofPairs_of_unique unique] at merged

@[simp] theorem keys_map_values {β : Type} (members : Members α) (f : α → β) :
    keys (members.map fun member => (member.1, f member.2)) = keys members := by
  simp [keys]

theorem unique_map_values {β : Type} (f : α → β) {members : Members α}
    (unique : (keys members).Nodup) :
    (keys (members.map fun member => (member.1, f member.2))).Nodup := by
  rwa [keys_map_values]

theorem find?_map {β : Type} (f : α → β) (key : String) (members : Members α) :
    find? key (members.map fun member => (member.1, f member.2)) = (find? key members).map f := by
  induction members with
  | nil => rfl
  | cons member rest ih =>
    rw [List.map_cons, find?, find?]
    split
    · rfl
    · exact ih

theorem find?_map_of_mem {β : Type} (f : α → β) {member : String × α} {members : Members α}
    (unique : (keys members).Nodup) (known : member ∈ members) :
    find? member.1 (members.map fun member => (member.1, f member.2)) = some (f member.2) := by
  rw [find?_map, find?_of_mem unique known, Option.map_some]

end Members

end CombinatorJson
