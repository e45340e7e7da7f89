import Mathlib.Algebra.Order.Field.Rat
import Mathlib.Data.List.Basic
import Mathlib.Tactic.Linarith
import Mathlib.Tactic.Positivity

/-!
# Drawdown metrics

This file models the metrics of `backtest/metrics.py` that a backtest is judged by: the largest
drawdown of a curve of net asset values, and the first tick whose recorded drawdown reaches a gate.

The largest drawdown grows at a value exactly when the drop from a peak of the curve to this value
is larger, which `maxDrawdownPct_concat` states in the form in which a run extends a curve.
-/

namespace SumplusTrader

namespace Backtest

/-- The drop from a peak in percent. -/
def dropPct (peak nav : ℚ) : ℚ := (peak - nav) / peak * 100

/-- The peak of a curve after one more value. -/
def raisePeak (hwm : Option ℚ) (n : ℚ) : ℚ :=
  match hwm with
  | none => n
  | some peak => if peak < n then n else peak

/-- One turn of the loop of `max_drawdown_pct`; there is no peak before the first value. -/
def drawdownStep (acc : Option ℚ × ℚ) (n : ℚ) : Option ℚ × ℚ :=
  let hwm := raisePeak acc.1 n
  (some hwm,
    if 0 < hwm then
      if acc.2 < dropPct hwm n then dropPct hwm n else acc.2
    else acc.2)

/-- `max_drawdown_pct`. -/
def maxDrawdownPct (navHistory : List ℚ) : ℚ := (navHistory.foldl drawdownStep (none, 0)).2

/-- `first_breach_hour`. -/
def firstBreachHour (drawdownHistory : List ℚ) (gatePct : ℚ) : Option ℕ :=
  drawdownHistory.findIdx? fun dd => gatePct ≤ dd

variable {navHistory drawdownHistory : List ℚ} {n peak hwm gatePct : ℚ}

theorem raisePeak_mem (acc : Option ℚ) (n : ℚ) :
    raisePeak acc n = n ∨ acc = some (raisePeak acc n) := by
  unfold raisePeak
  split
  · exact Or.inl rfl
  · split
    · exact Or.inl rfl
    · exact Or.inr rfl

/-- The peak of a curve is one of its values. -/
theorem peak_mem (navHistory : List ℚ) :
    ∀ peak, (navHistory.foldl drawdownStep (none, 0)).1 = some peak → peak ∈ navHistory := by
  induction navHistory using List.reverseRecOn with
  | nil =>
      intro peak found
      cases found
  | append_singleton navHistory n ih =>
      intro peak found
      rw [List.foldl_append, List.foldl_cons, List.foldl_nil, drawdownStep,
        Option.some.injEq] at found
      subst found
      rcases raisePeak_mem (navHistory.foldl drawdownStep (none, 0)).1 n with last | earlier
      · rw [last]
        simp
      · exact List.mem_append_left _ (ih _ earlier)

/-- One more value leaves the largest drawdown as it is, or makes it the drop from a peak. -/
theorem maxDrawdownPct_concat (navHistory : List ℚ) (n : ℚ) :
    maxDrawdownPct (navHistory ++ [n]) = maxDrawdownPct navHistory ∨
      ∃ peak ∈ navHistory ++ [n], 0 < peak ∧
        maxDrawdownPct (navHistory ++ [n]) = dropPct peak n := by
  have folded : (navHistory ++ [n]).foldl drawdownStep (none, 0) =
      drawdownStep (navHistory.foldl drawdownStep (none, 0)) n := by
    rw [List.foldl_append, List.foldl_cons, List.foldl_nil]
  have attained := peak_mem (navHistory ++ [n])
    (raisePeak (navHistory.foldl drawdownStep (none, 0)).1 n) (by rw [folded]; rfl)
  rw [maxDrawdownPct, folded, drawdownStep]
  dsimp only
  split
  · next positive =>
    split
    · exact Or.inr ⟨_, attained, positive, rfl⟩
    · exact Or.inl rfl
  · exact Or.inl rfl

/-- The drop to a value that is not negative grows with the peak. -/
theorem dropPct_le (nonneg : 0 ≤ n) (positive : 0 < peak) (higher : peak ≤ hwm) :
    dropPct peak n ≤ dropPct hwm n := by
  have positive' : 0 < hwm := lt_of_lt_of_le positive higher
  have shares : n / hwm ≤ n / peak := div_le_div_of_nonneg_left nonneg positive higher
  rw [dropPct, dropPct, sub_div, sub_div, div_self positive.ne', div_self positive'.ne']
  linarith

/-- A gate is breached when a drawdown on record reaches it. -/
theorem firstBreachHour_ne_none_iff :
    firstBreachHour drawdownHistory gatePct ≠ none ↔ ∃ dd ∈ drawdownHistory, gatePct ≤ dd := by
  rw [firstBreachHour, Ne, List.findIdx?_eq_none_iff]
  simp

end Backtest

end SumplusTrader
