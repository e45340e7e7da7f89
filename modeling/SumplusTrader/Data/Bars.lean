import Mathlib.Data.List.Forall2
import SumplusTrader.Python.Dict
import SumplusTrader.Python.Raise

/-!
# Series that agree up to a bar

This file compares paths, and dictionaries of paths, on their beginnings. Two of them agree up to
a bar if nothing distinguishes them at it or before it; what reads no further than the bar
cannot tell them apart.
-/

/-- The paths agree up to a bar, the bar included. -/
def SamePath {β : Type} (bar : ℕ) (path path' : List β) : Prop :=
  path.take (bar + 1) = path'.take (bar + 1)

/-- The keys are the same, and so is each path up to a bar. -/
def AgreeUpTo {κ β : Type} (bar : ℕ) (series series' : Dict κ (List β)) : Prop :=
  List.Forall₂ (fun entry entry' => entry.1 = entry'.1 ∧ SamePath bar entry.2 entry'.2)
    series.entries series'.entries

section

variable {κ β : Type} {bar i : ℕ} {path path' : List β} {series series' : Dict κ (List β)}

theorem SamePath.mono (same : SamePath bar path path') (earlier : i ≤ bar) :
    SamePath i path path' := by
  unfold SamePath at same ⊢
  have cut := congrArg (List.take (i + 1)) same
  rwa [List.take_take, List.take_take, min_eq_left (by omega)] at cut

theorem SamePath.getElem? (same : SamePath bar path path') (earlier : i ≤ bar) :
    path[i]? = path'[i]? := by
  have read := congrArg (·[i]?) (same.mono earlier)
  simpa [List.getElem?_take] using read

theorem SamePath.eq_nil_iff (same : SamePath bar path path') : path = [] ↔ path' = [] := by
  have empty := congrArg List.isEmpty (same.mono (Nat.zero_le bar))
  cases path <;> cases path' <;> simp_all

theorem lookup_forall₂ [DecidableEq κ] {entries entries' : List (κ × List β)}
    (agree : List.Forall₂ (fun entry entry' => entry.1 = entry'.1 ∧
      SamePath bar entry.2 entry'.2) entries entries') (key : κ) :
    Option.Rel (SamePath bar) (entries.lookup key) (entries'.lookup key) := by
  induction agree with
  | nil => exact .none
  | cons first _ ih =>
      rw [List.lookup_cons, List.lookup_cons, first.1]
      cases key == _ with
      | true => exact .some first.2
      | false => exact ih

/-- Under every key both have a path or neither has, and the paths agree. -/
theorem AgreeUpTo.get? [DecidableEq κ] (agree : AgreeUpTo bar series series') (key : κ) :
    Option.Rel (SamePath bar) (series.get? key) (series'.get? key) := lookup_forall₂ agree key

end

section

variable {ε α α' β γ : Type} {f : α → Except ε β} {g : α' → Except ε β} {xs : List α}
  {ys : List α'}

/-- Reading related items one by one gives the same. -/
theorem mapM_congr_forall₂ (related : List.Forall₂ (fun x y => f x = g y) xs ys) :
    xs.mapM f = ys.mapM g := by
  induction related with
  | nil => rfl
  | cons first _ ih => rw [List.mapM_cons, List.mapM_cons, first, ih]

/-- A loop whose turns do the same does the same. -/
theorem foldlM_congr {step step' : γ → α → Except ε γ}
    (same : ∀ x ∈ xs, ∀ c, step c x = step' c x) (c : γ) :
    xs.foldlM step c = xs.foldlM step' c := by
  induction xs generalizing c with
  | nil => rfl
  | cons x xs ih =>
      rw [List.forall_mem_cons] at same
      rw [List.foldlM_cons, List.foldlM_cons, same.1 c]
      exact bind_congr (ih same.2)

end
