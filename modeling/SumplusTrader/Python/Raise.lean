import Mathlib.Data.List.Basic

/-!
# Computations that may raise

This file gives the rules for computations that return a value or raise: when a sequence of two
succeeds, and what holds of a loop that stops at the first turn that raises.
-/

section

variable {ε α β : Type}

theorem bind_eq_ok_iff {x : Except ε α} {f : α → Except ε β} {b : β} :
    (x >>= f) = .ok b ↔ ∃ a, x = .ok a ∧ f a = .ok b := by
  cases x with
  | error e => simp [bind, Except.bind]
  | ok a => simp [bind, Except.bind]

theorem toOption_eq_some_iff {x : Except ε α} {a : α} : x.toOption = some a ↔ x = .ok a := by
  cases x <;> simp [Except.toOption]

/-- A loop raises when the turn of one of its items raises from every state. -/
theorem foldlM_error {f : β → α → Except ε β} {items : List α} {item : α} (mem : item ∈ items)
    (fails : ∀ b, ∃ e, f b item = .error e) (b : β) : ∃ e, items.foldlM f b = .error e := by
  induction items generalizing b with
  | nil => cases mem
  | cons first items ih =>
      rw [List.foldlM_cons]
      cases stepped : f b first with
      | error e => exact ⟨e, rfl⟩
      | ok b' =>
          rcases List.mem_cons.1 mem with rfl | later
          · rcases fails b with ⟨e, failed⟩
            rw [failed] at stepped
            cases stepped
          · exact ih later b'

/-- What every turn of a loop preserves holds of its result. -/
theorem foldlM_invariant {f : β → α → Except ε β} (inv : β → Prop)
    (preserved : ∀ b item b', inv b → f b item = .ok b' → inv b') {items : List α} {b last : β}
    (initial : inv b) (folded : items.foldlM f b = .ok last) : inv last := by
  induction items generalizing b with
  | nil =>
      cases folded
      exact initial
  | cons item items ih =>
      rw [List.foldlM_cons] at folded
      rcases bind_eq_ok_iff.1 folded with ⟨b', stepped, rest⟩
      exact ih (preserved b item b' initial stepped) rest

end
