import Mathlib.Data.List.Forall2

/-!
# Reading every item of a list

This file gives the rules for a function that may fail and is applied to every item of a list,
where one failure fails the whole: what a success says of the first item, of the last one and
of all of them.
-/

section

variable {α β : Type} {f : α → Option β} {xs : List α} {ys : List β} {x : α} {y : β}

theorem exists_cons_of_mapM (all : (x :: xs).mapM f = some ys) :
    ∃ y rest, f x = some y ∧ xs.mapM f = some rest ∧ ys = y :: rest := by
  rw [List.mapM_cons] at all
  rcases Option.bind_eq_some_iff.1 all with ⟨y, first, all⟩
  rcases Option.bind_eq_some_iff.1 all with ⟨rest, others, all⟩
  cases all
  exact ⟨y, rest, first, others, rfl⟩

theorem mapM_cons_of_some (first : f x = some y) (others : xs.mapM f = some ys) :
    (x :: xs).mapM f = some (y :: ys) := by
  rw [List.mapM_cons, first, others]
  rfl

theorem mapM_concat (all : xs.mapM f = some ys) (last : f x = some y) :
    (xs ++ [x]).mapM f = some (ys ++ [y]) := by
  simp [List.mapM_append, all, last]

theorem exists_append_of_mapM {others : List α} (all : (xs ++ others).mapM f = some ys) :
    ∃ init tail, xs.mapM f = some init ∧ others.mapM f = some tail ∧ ys = init ++ tail := by
  rw [List.mapM_append] at all
  rcases Option.bind_eq_some_iff.1 all with ⟨init, initEq, all⟩
  rcases Option.bind_eq_some_iff.1 all with ⟨tail, tailEq, all⟩
  cases all
  exact ⟨init, tail, initEq, tailEq, rfl⟩

theorem exists_concat_of_mapM (all : (xs ++ [x]).mapM f = some ys) :
    ∃ init y, xs.mapM f = some init ∧ f x = some y ∧ ys = init ++ [y] := by
  rcases exists_append_of_mapM all with ⟨init, tail, initEq, tailEq, rfl⟩
  rcases exists_cons_of_mapM tailEq with ⟨y, rest, last, none, rfl⟩
  cases none
  exact ⟨init, y, initEq, last, rfl⟩

theorem filterMap_of_mapM (all : xs.mapM f = some ys) : xs.filterMap f = ys := by
  induction xs generalizing ys with
  | nil => simpa [pure] using all
  | cons x xs ih =>
      rcases exists_cons_of_mapM all with ⟨y, rest, first, others, rfl⟩
      rw [List.filterMap_cons_some first, ih others]

theorem forall₂_of_mapM (all : xs.mapM f = some ys) :
    List.Forall₂ (fun x y => f x = some y) xs ys := by
  induction xs generalizing ys with
  | nil =>
      cases all
      exact .nil
  | cons x xs ih =>
      rcases exists_cons_of_mapM all with ⟨y, rest, first, others, rfl⟩
      exact .cons first (ih others)

end
