import SumplusTrader.Json.Order
import SumplusTrader.Json.RoundTrip

/-!
# Sorted forms are normal forms

Sorting the entries of every object gives values that are the same up to the
order of their entries the same form, provided no object holds a key twice: a
permutation of entries with distinct keys has one sorted arrangement. Together
with `sameUpToOrder_of_sortKeys_eq` the sorted form decides equality up to order.

Removing keys keeps the remaining ones distinct.
-/

namespace Json

instance : Std.Total keyLe := ⟨fun f g => le_total f.1 g.1⟩

instance : IsTrans (String × Json) keyLe := ⟨fun _ _ _ fg gh => le_trans fg gh⟩

/-- Entries with distinct keys have one sorted arrangement. -/
theorem insertionSort_eq_of_perm {fields others : List (String × Json)}
    (distinct : (fields.map Prod.fst).Nodup) (perm : fields.Perm others) :
    fields.insertionSort keyLe = others.insertionSort keyLe := by
  apply List.Perm.eq_of_pairwise _ (List.pairwise_insertionSort keyLe fields)
    (List.pairwise_insertionSort keyLe others)
  · exact (List.perm_insertionSort keyLe fields).trans
      (perm.trans (List.perm_insertionSort keyLe others).symm)
  · intro f g memF memG fg gf
    have memF := (List.perm_insertionSort keyLe fields).mem_iff.1 memF
    have memG := perm.mem_iff.2 ((List.perm_insertionSort keyLe others).mem_iff.1 memG)
    exact List.inj_on_of_nodup_map distinct memF memG (le_antisymm fg gf)

theorem map_fst_sortInside (fields : List (String × Json)) :
    (fields.map fun field => (field.1, field.2.sortKeys)).map Prod.fst = fields.map Prod.fst := by
  rw [List.map_map]
  rfl

theorem distinctKeysFields_of_perm {fields others : List (String × Json)}
    (perm : fields.Perm others) (distinct : DistinctKeysFields fields) :
    DistinctKeysFields others := by
  rw [distinctKeysFields_iff] at distinct ⊢
  intro field mem
  exact distinct field (perm.mem_iff.2 mem)

mutual

/-- Values that are the same up to the order of their entries sort to one value. -/
theorem sortKeys_eq_of_sameUpToOrder : ∀ {value other : Json},
    SameUpToOrder value other → value.DistinctKeys → value.sortKeys = other.sortKeys
  | _, _, .null, _ => rfl
  | _, _, .bool _, _ => rfl
  | _, _, .num _, _ => rfl
  | _, _, .str _, _ => rfl
  | _, _, .arr pointwise, distinct => by
      rw [sortKeys, sortKeys, sortKeysItems_eq_of_sameItems pointwise distinct]
  | .obj fields, .obj others, .obj perm pointwise, distinct => by
      rename_i reordered
      have inside := sortKeysFields_eq_of_sameFields pointwise
        (distinctKeysFields_of_perm perm distinct.2)
      rw [sortKeys, sortKeys, ← inside, sortKeysFields_eq_map, sortKeysFields_eq_map]
      rw [insertionSort_eq_of_perm (by rw [map_fst_sortInside]; exact distinct.1) (perm.map _)]

theorem sortKeysItems_eq_of_sameItems : ∀ {items others : List Json},
    SameItems items others → DistinctKeysItems items → sortKeysItems items = sortKeysItems others
  | _, _, .nil, _ => rfl
  | _, _, .cons head tail, distinct => by
      rw [sortKeysItems, sortKeysItems, sortKeys_eq_of_sameUpToOrder head distinct.1,
        sortKeysItems_eq_of_sameItems tail distinct.2]

theorem sortKeysFields_eq_of_sameFields : ∀ {fields others : List (String × Json)},
    SameFields fields others → DistinctKeysFields fields →
      sortKeysFields fields = sortKeysFields others
  | _, _, .nil, _ => rfl
  | _, _, .cons head tail, distinct => by
      rw [sortKeysFields, sortKeysFields, sortKeys_eq_of_sameUpToOrder head distinct.1,
        sortKeysFields_eq_of_sameFields tail distinct.2]

end

/-- The sorted form decides equality up to the order of entries. -/
theorem sortKeys_eq_iff {value other : Json} (distinct : value.DistinctKeys) :
    value.sortKeys = other.sortKeys ↔ SameUpToOrder value other :=
  ⟨sameUpToOrder_of_sortKeys_eq value other,
    fun same => sortKeys_eq_of_sameUpToOrder same distinct⟩

/-- The keys that remain are among the original ones, in their order. -/
theorem map_fst_dropKeysFields_sublist (drop : String → Bool) (fields : List (String × Json)) :
    ((dropKeysFields drop fields).map Prod.fst).Sublist (fields.map Prod.fst) := by
  induction fields with
  | nil => exact .slnil
  | cons field fields ih =>
      rcases field with ⟨key, value⟩
      by_cases dropped : drop key
      · simp only [dropKeysFields, dropped, if_true, List.map_cons]
        exact ih.cons _
      · simp only [dropKeysFields, dropped, Bool.false_eq_true, if_false, List.map_cons]
        exact ih.cons_cons _

mutual

/-- Removing keys keeps the keys of every object distinct. -/
theorem distinctKeys_dropKeys (drop : String → Bool) : ∀ value : Json,
    value.DistinctKeys → (value.dropKeys drop).DistinctKeys
  | .null, _ => trivial
  | .bool _, _ => trivial
  | .num _, _ => trivial
  | .str _, _ => trivial
  | .arr items, distinct => distinctKeys_dropKeysItems drop items distinct
  | .obj fields, distinct =>
      ⟨distinct.1.sublist (map_fst_dropKeysFields_sublist drop fields),
        distinctKeys_dropKeysFields drop fields distinct.2⟩

theorem distinctKeys_dropKeysItems (drop : String → Bool) : ∀ items : List Json,
    DistinctKeysItems items → DistinctKeysItems (dropKeysItems drop items)
  | [], _ => trivial
  | item :: items, distinct =>
      ⟨distinctKeys_dropKeys drop item distinct.1,
        distinctKeys_dropKeysItems drop items distinct.2⟩

theorem distinctKeys_dropKeysFields (drop : String → Bool) :
    ∀ fields : List (String × Json),
      DistinctKeysFields fields → DistinctKeysFields (dropKeysFields drop fields)
  | [], _ => trivial
  | (key, value) :: fields, distinct => by
      rw [dropKeysFields]
      by_cases dropped : drop key
      · rw [if_pos dropped]
        exact distinctKeys_dropKeysFields drop fields distinct.2
      · rw [if_neg dropped]
        exact ⟨distinctKeys_dropKeys drop value distinct.1,
          distinctKeys_dropKeysFields drop fields distinct.2⟩

end

mutual

/-- A sorted value is sorted already. -/
theorem sortKeys_sortKeys : ∀ value : Json, value.sortKeys.sortKeys = value.sortKeys
  | .null => by simp [sortKeys]
  | .bool _ => by simp [sortKeys]
  | .num _ => by simp [sortKeys]
  | .str _ => by simp [sortKeys]
  | .arr items => by
      rw [sortKeys, sortKeys, sortKeysItems_sortKeysItems items]
  | .obj fields => by
      have settled : ∀ field ∈ (sortKeysFields fields).insertionSort keyLe,
          (field.1, field.2.sortKeys) = id field := by
        intro field mem
        rw [sortKeys_of_mem_sortKeysFields fields field ((List.mem_insertionSort _).1 mem)]
        rfl
      rw [sortKeys, sortKeys, sortKeysFields_eq_map ((sortKeysFields fields).insertionSort keyLe),
        List.map_congr_left settled, List.map_id,
        (List.pairwise_insertionSort keyLe _).insertionSort_eq]

theorem sortKeysItems_sortKeysItems : ∀ items : List Json,
    sortKeysItems (sortKeysItems items) = sortKeysItems items
  | [] => rfl
  | item :: items => by
      rw [sortKeysItems, sortKeysItems, sortKeys_sortKeys item, sortKeysItems_sortKeysItems items]

theorem sortKeys_of_mem_sortKeysFields : ∀ (fields : List (String × Json)) (field : String × Json),
    field ∈ sortKeysFields fields → field.2.sortKeys = field.2
  | [], _, mem => absurd mem List.not_mem_nil
  | (key, value) :: fields, field, mem => by
      rw [sortKeysFields] at mem
      rcases List.mem_cons.1 mem with rfl | tail
      · exact sortKeys_sortKeys value
      · exact sortKeys_of_mem_sortKeysFields fields field tail

end

/-- A value and its sorted form are the same up to the order of entries. -/
theorem sameUpToOrder_sortKeys (value : Json) : SameUpToOrder value value.sortKeys :=
  sameUpToOrder_of_sortKeys_eq _ _ (sortKeys_sortKeys value).symm

mutual

/-- Sorting keeps the keys of every object distinct. -/
theorem distinctKeys_sortKeys : ∀ value : Json, value.DistinctKeys → value.sortKeys.DistinctKeys
  | .null, _ => by simp [sortKeys, DistinctKeys]
  | .bool _, _ => by simp [sortKeys, DistinctKeys]
  | .num _, _ => by simp [sortKeys, DistinctKeys]
  | .str _, _ => by simp [sortKeys, DistinctKeys]
  | .arr items, distinct => by
      rw [sortKeys, DistinctKeys]
      exact distinctKeys_sortKeysItems items distinct
  | .obj fields, distinct => by
      have sorted := (List.perm_insertionSort keyLe (sortKeysFields fields)).symm
      rw [sortKeys, DistinctKeys]
      constructor
      · rw [← (sorted.map Prod.fst).nodup_iff, sortKeysFields_eq_map, map_fst_sortInside]
        exact distinct.1
      · exact distinctKeysFields_of_perm sorted (distinctKeys_sortKeysFields fields distinct.2)

theorem distinctKeys_sortKeysItems : ∀ items : List Json,
    DistinctKeysItems items → DistinctKeysItems (sortKeysItems items)
  | [], _ => trivial
  | item :: items, distinct =>
      ⟨distinctKeys_sortKeys item distinct.1, distinctKeys_sortKeysItems items distinct.2⟩

theorem distinctKeys_sortKeysFields : ∀ fields : List (String × Json),
    DistinctKeysFields fields → DistinctKeysFields (sortKeysFields fields)
  | [], _ => trivial
  | (_, value) :: fields, distinct =>
      ⟨distinctKeys_sortKeys value distinct.1, distinctKeys_sortKeysFields fields distinct.2⟩

end

end Json
