import CombinatorJson.Proofs.Members

set_option autoImplicit false

namespace CombinatorJson

namespace Members

variable {α : Type}

def Sorted (members : Members α) : Prop :=
  (keys members).Pairwise (· < ·)

theorem Sorted.unique {members : Members α} (sorted : members.Sorted) : (keys members).Nodup :=
  List.Pairwise.imp (fun less => String.ne_of_lt less) sorted

theorem Sorted.map_values {β : Type} (f : α → β) {members : Members α} (sorted : members.Sorted) :
    Sorted (members.map fun member => (member.1, f member.2)) := by
  rwa [Sorted, keys_map_values]

theorem mem_keys_insertSorted (sought key : String) (value : α) (members : Members α) :
    sought ∈ keys (insertSorted key value members) ↔ sought = key ∨ sought ∈ keys members := by
  induction members with
  | nil => simp [insertSorted]
  | cons member rest ih =>
    obtain ⟨candidate, old⟩ := member
    rw [insertSorted]
    split
    · next same => simp [same]
    · split
      · simp
      · simp [ih, or_left_comm]

theorem sorted_insertSorted {members : Members α} (sorted : members.Sorted) (key : String)
    (value : α) : (insertSorted key value members).Sorted := by
  induction members with
  | nil => exact List.pairwise_singleton _ _
  | cons member rest ih =>
    obtain ⟨candidate, old⟩ := member
    obtain ⟨first, tail⟩ := List.pairwise_cons.mp sorted
    rw [insertSorted]
    split
    · next same => exact same ▸ sorted
    · next different =>
      split
      · next less =>
        have all : ∀ other ∈ keys ((candidate, old) :: rest), key < other := by
          intro other known
          rcases List.mem_cons.mp known with rfl | later
          · exact less
          · exact String.lt_trans less (first other later)
        exact List.pairwise_cons.mpr ⟨all, sorted⟩
      · next notLess =>
        -- Keys are totally ordered, so a key that is neither equal nor less is greater.
        have greater : candidate < key := by
          apply Decidable.byContradiction
          intro notGreater
          exact different (String.le_antisymm notLess notGreater)
        refine List.pairwise_cons.mpr ⟨fun other known => ?_, ih tail⟩
        rcases (mem_keys_insertSorted other key value rest).mp known with rfl | later
        · exact greater
        · exact first other later

theorem find?_insertSorted (sought key : String) (value : α) (members : Members α) :
    find? sought (insertSorted key value members) =
      if key = sought then some value else find? sought members := by
  induction members with
  | nil => rfl
  | cons member rest ih =>
    obtain ⟨candidate, old⟩ := member
    rw [insertSorted]
    split
    · next same =>
      subst same
      by_cases hit : candidate = sought <;> simp [find?, hit]
    · next different =>
      split
      · rfl
      · by_cases hit : candidate = sought
        · subst hit
          simp [find?, Ne.symm different]
        · simp [find?, hit, ih]

def insertAllSorted (members : Members α) (pairs : List (String × α)) : Members α :=
  pairs.foldl (fun members (key, value) => insertSorted key value members) members

theorem insertAllSorted_cons (members : Members α) (pair : String × α)
    (pairs : List (String × α)) : insertAllSorted members (pair :: pairs) =
      insertAllSorted (insertSorted pair.1 pair.2 members) pairs :=
  rfl

theorem sortedOfPairs_eq_insertAllSorted (pairs : List (String × α)) :
    sortedOfPairs pairs = insertAllSorted [] pairs :=
  rfl

theorem sortedOfPairs_reverse_cons (pair : String × α) (pairs : List (String × α)) :
    sortedOfPairs (pair :: pairs).reverse =
      insertSorted pair.1 pair.2 (sortedOfPairs pairs.reverse) := by
  simp [sortedOfPairs]

theorem sorted_insertAllSorted {members : Members α} (sorted : members.Sorted)
    (pairs : List (String × α)) : (insertAllSorted members pairs).Sorted := by
  induction pairs generalizing members with
  | nil => exact sorted
  | cons pair pairs ih => exact ih (sorted_insertSorted sorted pair.1 pair.2)

theorem find?_insertAllSorted (key : String) (members : Members α) (pairs : List (String × α)) :
    find? key (insertAllSorted members pairs) =
      (find? key pairs.reverse).or (find? key members) := by
  induction pairs generalizing members with
  | nil => rfl
  | cons pair pairs ih =>
    obtain ⟨candidate, value⟩ := pair
    rw [insertAllSorted_cons, ih, List.reverse_cons, find?_append, Option.or_assoc,
      find?_insertSorted]
    by_cases same : candidate = key <;> simp [find?, same]

theorem sorted_sortedOfPairs (pairs : List (String × α)) : (sortedOfPairs pairs).Sorted := by
  have empty : Sorted ([] : Members α) := List.Pairwise.nil
  exact sorted_insertAllSorted empty pairs

theorem find?_sortedOfPairs (key : String) (pairs : List (String × α)) :
    find? key (sortedOfPairs pairs) = find? key pairs.reverse := by
  simpa [sortedOfPairs_eq_insertAllSorted, find?] using find?_insertAllSorted key [] pairs

theorem mem_of_mem_sortedOfPairs {member : String × α} {pairs : List (String × α)}
    (known : member ∈ sortedOfPairs pairs) : member ∈ pairs := by
  have found := find?_of_mem (sorted_sortedOfPairs pairs).unique known
  rw [find?_sortedOfPairs] at found
  exact List.mem_reverse.mp (mem_of_find? found)

theorem find?_reverse_of_unique {pairs : Members α} (unique : (keys pairs).Nodup) (key : String) :
    find? key pairs.reverse = find? key pairs :=
  ((merges_of_unique unique).2 key).symm

theorem Sorted.eq_of_find? {left right : Members α} (left_ok : left.Sorted)
    (right_ok : right.Sorted) (same : ∀ key, find? key left = find? key right) : left = right := by
  apply Members.eq_of_find? left_ok.unique _ same
  have members (key : String) : key ∈ keys left ↔ key ∈ keys right := by
    rw [← Decidable.not_iff_not, ← find?_eq_none_iff, ← find?_eq_none_iff, same]
  -- The same keys in two increasing orders are the same list.
  have permuted := (List.perm_ext_iff_of_nodup left_ok.unique right_ok.unique).mpr members
  apply permuted.eq_of_pairwise _ left_ok right_ok
  exact fun a b _ _ less greater => absurd (String.lt_trans less greater) (String.lt_irrefl a)

theorem sortedOfPairs_of_sorted {members : Members α} (sorted : members.Sorted) :
    sortedOfPairs members = members := by
  apply (sorted_sortedOfPairs members).eq_of_find? sorted
  intro key
  rw [find?_sortedOfPairs, find?_reverse_of_unique sorted.unique]

theorem eq_of_sortedOfPairs {left right : Members α} (unique : (keys left).Nodup)
    (sameKeys : keys left = keys right) (same : sortedOfPairs left = sortedOfPairs right) :
    left = right := by
  have unique' : (keys right).Nodup := by rwa [← sameKeys]
  apply eq_of_find? unique sameKeys
  intro key
  calc find? key left
    _ = find? key (sortedOfPairs left) := by rw [find?_sortedOfPairs, find?_reverse_of_unique unique]
    _ = find? key (sortedOfPairs right) := by rw [same]
    _ = find? key right := by rw [find?_sortedOfPairs, find?_reverse_of_unique unique']

theorem find?_eq_some_iff {members : Members α} (unique : (keys members).Nodup) (key : String)
    (value : α) : find? key members = some value ↔ (key, value) ∈ members :=
  ⟨mem_of_find?, find?_of_mem unique⟩

theorem unique_perm {left right : Members α} (permuted : left.Perm right)
    (unique : (keys left).Nodup) : (keys right).Nodup :=
  (permuted.map Prod.fst).nodup_iff.mp unique

theorem unique_middle (before after : Members α) (member : String × α) :
    (keys (before ++ member :: after)).Nodup ↔
      member.1 ∉ keys (before ++ after) ∧ (keys (before ++ after)).Nodup := by
  rw [keys_append, keys_cons, List.perm_middle.nodup_iff, List.nodup_cons, ← keys_append]

theorem find?_perm {left right : Members α} (permuted : left.Perm right)
    (unique : (keys left).Nodup) (key : String) : find? key left = find? key right := by
  apply Option.ext
  intro value
  rw [find?_eq_some_iff unique, find?_eq_some_iff (unique_perm permuted unique)]
  exact permuted.mem_iff

theorem sortedOfPairs_perm {left right : Members α} (permuted : left.Perm right)
    (unique : (keys left).Nodup) : sortedOfPairs left = sortedOfPairs right := by
  apply (sorted_sortedOfPairs left).eq_of_find? (sorted_sortedOfPairs right)
  intro key
  rw [find?_sortedOfPairs, find?_sortedOfPairs, find?_reverse_of_unique unique,
    find?_reverse_of_unique (unique_perm permuted unique)]
  exact find?_perm permuted unique key

theorem sortedOfPairs_map {β : Type} (f : α → β) (pairs : List (String × α)) :
    sortedOfPairs (pairs.map fun pair => (pair.1, f pair.2)) =
      (sortedOfPairs pairs).map fun pair => (pair.1, f pair.2) := by
  have mapped := (sorted_sortedOfPairs pairs).map_values f
  apply (sorted_sortedOfPairs _).eq_of_find? mapped
  intro key
  rw [find?_sortedOfPairs, ← List.map_reverse, find?_map, find?_map, find?_sortedOfPairs]

def inKeyOrder (members : Members α) : Members α :=
  members.mergeSort fun left right => left.1 ≤ right.1

theorem inKeyOrder_perm (members : Members α) : members.inKeyOrder.Perm members :=
  List.mergeSort_perm ..

theorem sorted_inKeyOrder {members : Members α} (unique : (keys members).Nodup) :
    members.inKeyOrder.Sorted := by
  have different := unique_perm members.inKeyOrder_perm.symm unique
  have ordered : members.inKeyOrder.Pairwise fun left right => left.1 ≤ right.1 := by
    have transitive (a b c : String × α) (first : decide (a.1 ≤ b.1) = true)
        (second : decide (b.1 ≤ c.1) = true) : decide (a.1 ≤ c.1) = true :=
      decide_eq_true (String.le_trans (of_decide_eq_true first) (of_decide_eq_true second))
    have total (a b : String × α) : (decide (a.1 ≤ b.1) || decide (b.1 ≤ a.1)) = true := by
      simpa using String.le_total a.1 b.1
    simpa [inKeyOrder] using List.pairwise_mergeSort transitive total members
  rw [Sorted, keys, List.pairwise_map]
  rw [keys, List.Nodup, List.pairwise_map] at different
  refine (ordered.and different).imp fun both => ?_
  apply Decidable.byContradiction
  intro notLess
  exact both.2 (String.le_antisymm both.1 notLess)

theorem sortedOfPairs_of_unique {members : Members α} (unique : (keys members).Nodup) :
    sortedOfPairs members = members.inKeyOrder := by
  rw [sortedOfPairs_perm members.inKeyOrder_perm.symm unique,
    sortedOfPairs_of_sorted (sorted_inKeyOrder unique)]

end Members

end CombinatorJson
