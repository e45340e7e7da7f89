import SumplusTrader.Json.Basic
import Mathlib.Data.List.Perm.Basic
import Mathlib.Data.String.Basic

/-!
# Sorting and removing keys

This file relates the two normalisations of `Json.Basic` to lookup and to
equality up to order. Sorting the entries of an object never changes what a key
finds, and removing keys changes only what the removed keys find. Two values
with the same sorted form are the same up to the order of their entries.
-/

namespace Json

theorem lookup_orderedInsert (key : String) (field : String × Json)
    (fields : List (String × Json)) :
    (fields.orderedInsert keyLe field).lookup key = (field :: fields).lookup key := by
  induction fields with
  | nil => rfl
  | cons next fields ih =>
      rw [List.orderedInsert_cons]
      by_cases before : keyLe field next
      · rw [if_pos before]
      · rw [if_neg before]
        have distinct : next.1 ≠ field.1 := by
          intro same
          exact before (le_of_eq same.symm)
        rcases field with ⟨fieldKey, fieldValue⟩
        rcases next with ⟨nextKey, nextValue⟩
        simp only [List.lookup_cons] at ih ⊢
        rw [ih]
        by_cases hitsNext : key = nextKey
        · subst hitsNext
          have missesField : (key == fieldKey) = false := by simpa using distinct
          simp [missesField]
        · have missesNext : (key == nextKey) = false := by simpa using hitsNext
          simp only [missesNext]

/-- Sorting the entries of an object does not change what a key finds. -/
theorem lookup_insertionSort (key : String) (fields : List (String × Json)) :
    (fields.insertionSort keyLe).lookup key = fields.lookup key := by
  induction fields with
  | nil => rfl
  | cons field fields ih =>
      rcases field with ⟨fieldKey, fieldValue⟩
      rw [List.insertionSort_cons, lookup_orderedInsert]
      simp only [List.lookup_cons, ih]

theorem lookup_sortKeysFields (key : String) (fields : List (String × Json)) :
    (sortKeysFields fields).lookup key = (fields.lookup key).map sortKeys := by
  induction fields with
  | nil => rfl
  | cons field fields ih =>
      rcases field with ⟨fieldKey, value⟩
      simp only [sortKeysFields, List.lookup_cons, ih]
      cases key == fieldKey <;> rfl

theorem get?_sortKeys (value : Json) (key : String) :
    value.sortKeys.get? key = (value.get? key).map sortKeys := by
  cases value with
  | obj fields =>
      simp only [sortKeys, get?]
      rw [lookup_insertionSort, lookup_sortKeysFields]
  | _ => rfl

theorem lookup_dropKeysFields (drop : String → Bool) {key : String} (kept : drop key = false)
    (fields : List (String × Json)) :
    (dropKeysFields drop fields).lookup key = (fields.lookup key).map (dropKeys drop) := by
  induction fields with
  | nil => rfl
  | cons field fields ih =>
      rcases field with ⟨fieldKey, value⟩
      simp only [dropKeysFields, List.lookup_cons]
      by_cases hits : key = fieldKey
      · subst hits
        simp [kept]
      · have misses : (key == fieldKey) = false := by simpa using hits
        by_cases dropped : drop fieldKey
        · simp only [dropped, if_true, misses, ih]
        · simp only [dropped, Bool.false_eq_true, if_false, List.lookup_cons, misses, ih]

theorem get?_dropKeys (drop : String → Bool) (value : Json) {key : String}
    (kept : drop key = false) :
    (value.dropKeys drop).get? key = (value.get? key).map (dropKeys drop) := by
  cases value with
  | obj fields =>
      simp only [dropKeys, get?]
      exact lookup_dropKeysFields drop kept fields
  | _ => rfl

theorem sortKeysItems_eq_map (items : List Json) : sortKeysItems items = items.map sortKeys := by
  induction items with
  | nil => rfl
  | cons item items ih => rw [sortKeysItems, ih, List.map_cons]

theorem sortKeysFields_eq_map (fields : List (String × Json)) :
    sortKeysFields fields = fields.map fun field => (field.1, field.2.sortKeys) := by
  induction fields with
  | nil => rfl
  | cons field fields ih => rw [sortKeysFields, ih, List.map_cons]

theorem dropKeysItems_eq_map (drop : String → Bool) (items : List Json) :
    dropKeysItems drop items = items.map (dropKeys drop) := by
  induction items with
  | nil => rfl
  | cons item items ih => rw [dropKeysItems, ih, List.map_cons]

/-- Entries that are equal after sorting inside them are pointwise the same. -/
theorem sameFields_of_map_eq {fields others : List (String × Json)}
    (inner : ∀ field ∈ fields, ∀ other : Json,
      field.2.sortKeys = other.sortKeys → SameUpToOrder field.2 other)
    (same : (fields.map fun field => (field.1, field.2.sortKeys)) =
      others.map fun field => (field.1, field.2.sortKeys)) : SameFields fields others := by
  induction fields generalizing others with
  | nil =>
      cases others with
      | nil => exact .nil
      | cons other others => simp at same
  | cons field fields ih =>
      cases others with
      | nil => simp at same
      | cons other others =>
          rcases field with ⟨key, value⟩
          rcases other with ⟨otherKey, otherValue⟩
          simp only [List.map_cons, List.cons.injEq, Prod.mk.injEq] at same
          rcases same with ⟨⟨rfl, values⟩, rest⟩
          exact .cons (inner (key, value) (by simp) otherValue values)
            (ih (fun field mem => inner field (List.mem_cons_of_mem _ mem)) rest)

/-- A permutation of an image lifts to a permutation of its source. -/
theorem exists_perm_map_eq {α β : Type} (f : α → β) {source : List α} {image : List β}
    (perm : (source.map f).Perm image) :
    ∃ reordered : List α, source.Perm reordered ∧ reordered.map f = image := by
  have commuted := congrFun (congrFun (List.eq_map_comp_perm f) image) source
  rcases commuted.mpr perm.symm with ⟨reordered, imageEq, reorder⟩
  exact ⟨reordered, reorder.symm, imageEq.symm⟩

mutual

theorem sameUpToOrder_of_sortKeys_eq : ∀ value other : Json,
    value.sortKeys = other.sortKeys → SameUpToOrder value other
  | .null, other, same => by
      cases other <;> simp_all [sortKeys]
      exact .null
  | .bool b, other, same => by
      cases other <;> simp_all [sortKeys]
      exact .bool _
  | .num n, other, same => by
      cases other <;> simp_all [sortKeys]
      exact .num _
  | .str s, other, same => by
      cases other <;> simp_all [sortKeys]
      exact .str _
  | .arr items, other, same => by
      cases other with
      | arr others =>
          simp only [sortKeys, Json.arr.injEq] at same
          exact .arr (sameItems_of_sortKeys_eq items others same)
      | _ => simp [sortKeys] at same
  | .obj fields, other, same => by
      cases other with
      | obj others =>
          simp only [sortKeys, Json.obj.injEq, sortKeysFields_eq_map] at same
          have perm := (List.perm_insertionSort keyLe
            (fields.map fun field => (field.1, field.2.sortKeys))).symm
          rw [same] at perm
          rcases exists_perm_map_eq _
            (perm.trans (List.perm_insertionSort keyLe _)) with ⟨reordered, reorder, image⟩
          exact .obj reorder (sameFields_of_map_eq (fun field mem =>
            sameUpToOrder_of_mem fields field (reorder.mem_iff.2 mem)) image)
      | _ => simp [sortKeys] at same

theorem sameItems_of_sortKeys_eq : ∀ items others : List Json,
    sortKeysItems items = sortKeysItems others → SameItems items others
  | [], others, same => by
      cases others with
      | nil => exact .nil
      | cons other others => simp [sortKeysItems] at same
  | item :: items, others, same => by
      cases others with
      | nil => simp [sortKeysItems] at same
      | cons other others =>
          simp only [sortKeysItems, List.cons.injEq] at same
          exact .cons (sameUpToOrder_of_sortKeys_eq item other same.1)
            (sameItems_of_sortKeys_eq items others same.2)

theorem sameUpToOrder_of_mem : ∀ (fields : List (String × Json)) (field : String × Json),
    field ∈ fields → ∀ other : Json,
      field.2.sortKeys = other.sortKeys → SameUpToOrder field.2 other
  | [], _, mem, _, _ => absurd mem List.not_mem_nil
  | (_, value) :: fields, field, mem, other, same => by
      rcases List.mem_cons.1 mem with rfl | tail
      · exact sameUpToOrder_of_sortKeys_eq value other same
      · exact sameUpToOrder_of_mem fields field tail other same

end

end Json
